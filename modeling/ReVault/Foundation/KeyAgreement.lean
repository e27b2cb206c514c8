import Mathlib.Algebra.Group.Defs
import Mathlib.Data.Multiset.ZeroCons
import Mathlib.Tactic.Common

/-!
# Key agreement, symbolically

The values of a key agreement as an attacker can name them: the generator raised to secrets,
whose order does not matter, and to a scalar that the attacker knows; and the null element,
every power of which is null. From public values the attacker derives their multiples, so
no value that it names has more than one secret. Two secrets therefore lead to one value
only when each is applied to the other, equally scaled, or both are applied to null.
-/

namespace ReVault.Foundation

/-- The base raised to a scalar and some secrets, or the element of no use. -/
inductive Element (Secret Scalar : Type) where
  | null
  | power (scalar : Scalar) (secrets : Multiset Secret)
  deriving DecidableEq

namespace Element

variable {Secret Scalar : Type}

/-- An element raised to a secret. -/
def agree (secret : Secret) : Element Secret Scalar → Element Secret Scalar
  | null => null
  | power scalar secrets => power scalar (secret ::ₘ secrets)

/-- The public value of a secret. -/
def ofSecret [One Scalar] (secret : Secret) : Element Secret Scalar := power 1 {secret}

/-- An element raised to a scalar. -/
def scale [Mul Scalar] (factor : Scalar) : Element Secret Scalar → Element Secret Scalar
  | null => null
  | power scalar secrets => power (factor * scalar) secrets

/-- What an attacker derives from the public values of secrets. -/
inductive Derives [One Scalar] [Mul Scalar] (published : Secret → Prop) :
    Element Secret Scalar → Prop
  | null : Derives published null
  | generator : Derives published (power 1 0)
  | ofSecret (secret : Secret) : published secret → Derives published (ofSecret secret)
  | scale (factor : Scalar) {element : Element Secret Scalar} :
      Derives published element → Derives published (element.scale factor)

/-- Each of two secrets is applied to the other's public value, equally scaled, or both are
applied to null. -/
def Crossed (secret : Secret) (element : Element Secret Scalar) (secret' : Secret)
    (element' : Element Secret Scalar) : Prop :=
  (element = null ∧ element' = null) ∨
    ∃ scalar, element = power scalar {secret'} ∧ element' = power scalar {secret}

/-- A crossed pair, the other way around. -/
theorem Crossed.symm {secret secret' : Secret} {element element' : Element Secret Scalar}
    (crossed : Crossed secret element secret' element') :
    Crossed secret' element' secret element := by
  rcases crossed with ⟨isNull, isNull'⟩ | ⟨scalar, shape, shape'⟩
  · exact Or.inl ⟨isNull', isNull⟩
  · exact Or.inr ⟨scalar, shape', shape⟩

/-- The two sides of a key agreement meet. -/
theorem agree_ofSecret [One Scalar] (secret secret' : Secret) :
    agree secret (ofSecret secret' : Element Secret Scalar) = agree secret' (ofSecret secret) :=
  congrArg (power 1) (Multiset.cons_swap secret secret' 0)

variable [One Scalar] [Mul Scalar] {published : Secret → Prop}

/-- Who knows more derives more. -/
theorem Derives.mono {published' : Secret → Prop} {element : Element Secret Scalar}
    (derived : Derives published element)
    (implies : ∀ secret, published secret → published' secret) : Derives published' element := by
  induction derived with
  | null => exact null
  | generator => exact generator
  | ofSecret secret isPublished => exact ofSecret secret (implies secret isPublished)
  | scale factor _ ih => exact ih.scale factor

/-- A derived element has at most one secret, and that one is published. -/
theorem Derives.shape {element : Element Secret Scalar} (derived : Derives published element) :
    element = Element.null ∨ (∃ scalar, element = power scalar 0) ∨
      ∃ scalar secret, published secret ∧ element = power scalar {secret} := by
  induction derived with
  | null => exact Or.inl rfl
  | generator => exact Or.inr (Or.inl ⟨1, rfl⟩)
  | ofSecret secret isPublished => exact Or.inr (Or.inr ⟨1, secret, isPublished, rfl⟩)
  | scale factor _ ih =>
      rcases ih with rfl | ⟨scalar, rfl⟩ | ⟨scalar, secret, isPublished, rfl⟩
      · exact Or.inl rfl
      · exact Or.inr (Or.inl ⟨factor * scalar, rfl⟩)
      · exact Or.inr (Or.inr ⟨factor * scalar, secret, isPublished, rfl⟩)

/-- A power of one secret is derived by those who know the secret. -/
theorem Derives.published_of_eq {element : Element Secret Scalar}
    (derived : Derives published element) {scalar : Scalar} {secret : Secret}
    (same : element = power scalar {secret}) : published secret := by
  rcases derived.shape with rfl | ⟨other, rfl⟩ | ⟨other, found, isPublished, rfl⟩
  · cases same
  · exact absurd (power.inj same).2.symm (Multiset.singleton_ne_zero secret)
  · rwa [Multiset.singleton_inj.mp (power.inj same).2] at isPublished

/-- **Agreement.** Different secrets lead from derived elements to one value exactly when they
are crossed. -/
theorem agree_eq_iff {secret secret' : Secret} {element element' : Element Secret Scalar}
    (derived : Derives published element) (different : secret ≠ secret') :
    agree secret element = agree secret' element' ↔
      Crossed secret element secret' element' := by
  constructor
  · intro same
    cases element with
    | null =>
        cases element' with
        | null => exact Or.inl ⟨rfl, rfl⟩
        | power scalar' secrets' => cases same
    | power scalar secrets =>
        cases element' with
        | null => cases same
        | power scalar' secrets' =>
            obtain ⟨rfl, powers⟩ := power.inj same
            obtain ⟨_, common, rfl, rfl⟩ :=
              (Multiset.cons_eq_cons.mp powers).resolve_left fun equal => different equal.1
            rcases derived.shape with isNull | ⟨_, plain⟩ | ⟨_, single, _, one⟩
            · cases isNull
            · exact absurd (power.inj plain).2 (Multiset.cons_ne_zero)
            · obtain ⟨_, rfl⟩ := (Multiset.singleton_eq_cons_iff common).mp (power.inj one).2.symm
              exact Or.inr ⟨scalar, rfl, rfl⟩
  · rintro (⟨rfl, rfl⟩ | ⟨scalar, rfl, rfl⟩)
    · rfl
    · exact congrArg (power scalar) (Multiset.cons_swap secret secret' 0)

end Element

end ReVault.Foundation
