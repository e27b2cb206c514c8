import ReVault.Foundation.KeyAgreement
import ReVault.Net.Suite

/-!
# An attacker between many sessions

Honest identities run any number of sessions over a suite of symbolic values. An attacker brings
every session its hello, of a public value that it derives, under any `PeerId`, and with a
signature that it has seen or can make. It has seen the hellos of all sessions and the signed
digests of chain records, which the same keys sign. Whatever it does, a hello that verifies under
an honest `PeerId` carries the ephemeral key of a session of that identity, or a digest.
-/

namespace ReVault

open Foundation Foundation.Element

namespace Symbolic

/-- An identity, or its `PeerId`: the signing key and the encryption key. -/
structure Party (Signer Half : Type) where
  signing : Signer
  encryption : Half
  deriving DecidableEq

/-- The secret of a session, or the one that nobody knows whose public value is a digest. -/
inductive Atom (Digest : Type) where
  | session (index : Nat)
  | digest (value : Digest)

/-- What a symbolic suite is made of, who is honest, and which signing keys the attacker holds.
The `PeerId` of an honest identity is determined by its signing key. -/
structure Setting where
  Signer : Type
  Half : Type
  Digest : Type
  Scalar : Type
  [one : One Scalar]
  [mul : Mul Scalar]
  honest : Party Signer Half → Prop
  compromised : Signer → Prop
  uncompromised : ∀ party, honest party → ¬compromised party.signing
  determined : ∀ party party', honest party → honest party' →
    party.signing = party'.signing → party = party'

attribute [instance] Setting.one Setting.mul

namespace Setting

variable (setting : Setting)

/-- Signatures that only the signing key makes, and a key agreement that is secret. -/
abbrev suite : Suite where
  Identity := Party setting.Signer setting.Half
  Peer := Party setting.Signer setting.Half
  Secret := Atom setting.Digest
  Public := Element (Atom setting.Digest) setting.Scalar
  Signature := setting.Signer × Element (Atom setting.Digest) setting.Scalar
  Key := Element (Atom setting.Digest) setting.Scalar
  peer := id
  ofSecret := Element.ofSecret
  sign party message := (party.signing, message)
  verifies party message signature := signature = (party.signing, message)
  key := agree

/-- All sessions that have been started. -/
abbrev World : Type := List setting.suite.Session

/-- The secrets whose public values the attacker has seen, when there are so many sessions. -/
def Published (count : Nat) : Atom setting.Digest → Prop
  | .session index => index < count
  | .digest _ => True

/-- The signatures that the attacker has: its own, those of hellos, and those of records. -/
inductive Available (world : setting.World) : setting.suite.Signature → Prop
  | own {signer : setting.Signer} {message : setting.suite.Public} :
      setting.compromised signer → Derives (setting.Published world.length) message →
        Available world (signer, message)
  | greeted {index : Nat} {session : setting.suite.Session} : world[index]? = some session →
      Available world (setting.suite.greet session.owner session.secret).signature
  | record {signer : setting.suite.Identity} (value : setting.Digest) : setting.honest signer →
      Available world (setting.suite.sign signer (setting.suite.ofSecret (.digest value)))

/-- The hellos that the attacker can bring. -/
structure Offers (world : setting.World) (greeting : setting.suite.Greeting) : Prop where
  derived : Derives (setting.Published world.length) greeting.ephemeral
  available : setting.Available world greeting.signature

/-- A step of an honest identity: it dials, it accepts a connection with a hello, its dialling
session reads a hello, or a session sends a message. -/
inductive Act where
  | initiate (owner : setting.suite.Identity) (expected : setting.suite.Peer)
  | respond (owner : setting.suite.Identity) (greeting : setting.suite.Greeting)
  | complete (index : Nat) (greeting : setting.suite.Greeting)
  | send (index : Nat) (message : Bytes)

variable {setting}

/-- What a step leads to. Secrets are fresh, and a session that has accepted a hello reads no
other. -/
def Step (_ : List setting.Act) (world : setting.World) (act : setting.Act)
    (world' : setting.World) : Prop :=
  match act with
  | .initiate owner expected => setting.honest owner ∧
      world' = world ++ [⟨.initiator, owner, .session world.length, some expected, none, []⟩]
  | .respond owner greeting => setting.honest owner ∧ setting.Offers world greeting ∧
      setting.suite.Accepts none greeting ∧
      world' = world ++ [⟨.responder, owner, .session world.length, none, some greeting, []⟩]
  | .complete index greeting => ∃ session, world[index]? = some session ∧
      session.side = .initiator ∧ session.accepted = none ∧ setting.Offers world greeting ∧
      setting.suite.Accepts session.expected greeting ∧
      world' = world.set index { session with accepted := some greeting }
  | .send index message => ∃ session, world[index]? = some session ∧
      session.accepted ≠ none ∧
      world' = world.set index { session with sent := session.sent ++ [message] }

section

variable {trace : List setting.Act} {world : setting.World}
  (run : Runs Step ([] : setting.World) trace world)

include run

/-- A run goes on with an initiator. -/
theorem runs_initiate (owner : setting.suite.Identity) (expected : setting.suite.Peer)
    (isHonest : setting.honest owner) :
    Runs Step ([] : setting.World) (trace ++ [.initiate owner expected])
      (world ++ [⟨.initiator, owner, .session world.length, some expected, none, []⟩]) :=
  run.snoc ⟨isHonest, rfl⟩

/-- A run goes on with a responder. -/
theorem runs_respond (owner : setting.suite.Identity) (greeting : setting.suite.Greeting)
    (isHonest : setting.honest owner) (offers : setting.Offers world greeting)
    (accepts : setting.suite.Accepts none greeting) :
    Runs Step ([] : setting.World) (trace ++ [.respond owner greeting])
      (world ++ [⟨.responder, owner, .session world.length, none, some greeting, []⟩]) :=
  run.snoc ⟨isHonest, offers, accepts, rfl⟩

/-- A run goes on with an initiator that accepts a greeting. -/
theorem runs_complete (index : Nat) (greeting : setting.suite.Greeting)
    {session : setting.suite.Session} (place : world[index]? = some session)
    (dials : session.side = .initiator) (waiting : session.accepted = none)
    (offers : setting.Offers world greeting)
    (accepts : setting.suite.Accepts session.expected greeting) :
    Runs Step ([] : setting.World) (trace ++ [.complete index greeting])
      (world.set index { session with accepted := some greeting }) :=
  run.snoc ⟨session, place, dials, waiting, offers, accepts, rfl⟩

/-- A run goes on with a message. -/
theorem runs_send (index : Nat) (message : Bytes) {session : setting.suite.Session}
    (place : world[index]? = some session) (opened : session.accepted ≠ none) :
    Runs Step ([] : setting.World) (trace ++ [.send index message])
      (world.set index { session with sent := session.sent ++ [message] }) :=
  run.snoc ⟨session, place, opened, rfl⟩

end

/-! ## What grows -/

/-- Every session is still there, with its owner and its secret. -/
def Extends (world world' : setting.World) : Prop :=
  ∀ (index : Nat) (session : setting.suite.Session), world[index]? = some session →
    ∃ session' : setting.suite.Session, world'[index]? = some session' ∧
      session'.owner = session.owner ∧ session'.secret = session.secret

namespace Extends

variable {world world' : setting.World}

/-- A world with one more session. -/
theorem append (session : setting.suite.Session) : Extends world (world ++ [session]) :=
  fun _ earlier place => ⟨earlier, (List.getElem?_append_left
    (List.getElem?_eq_some_iff.mp place).1).trans place, rfl, rfl⟩

/-- A world with a session that has gone on. -/
theorem set {index : Nat} {session session' : setting.suite.Session}
    (place : world[index]? = some session) (owner : session'.owner = session.owner)
    (secret : session'.secret = session.secret) : Extends world (world.set index session') := by
  intro other found place'
  by_cases same : index = other
  · subst same
    cases place.symm.trans place'
    exact ⟨session', List.getElem?_set_self (List.getElem?_eq_some_iff.mp place).1, owner, secret⟩
  · exact ⟨found, (List.getElem?_set_ne same).trans place', rfl, rfl⟩

/-- No session is forgotten. -/
theorem length_le (extended : Extends world world') : world.length ≤ world'.length := by
  by_contra fewer
  obtain ⟨_, place, _⟩ := extended world'.length _ (List.getElem?_eq_getElem (by omega))
  exact absurd (List.getElem?_eq_some_iff.mp place).1 (Nat.lt_irrefl _)

/-- What could be derived still can. -/
theorem derives (extended : Extends world world') {element : setting.suite.Public}
    (derived : Derives (setting.Published world.length) element) :
    Derives (setting.Published world'.length) element :=
  derived.mono fun secret isPublished => by
    cases secret with
    | session index => exact Nat.lt_of_lt_of_le isPublished extended.length_le
    | digest value => trivial

/-- A signature that was seen stays seen. -/
theorem available (extended : Extends world world') {signature : setting.suite.Signature}
    (seen : setting.Available world signature) : setting.Available world' signature := by
  cases seen with
  | own isCompromised derived => exact Available.own isCompromised (extended.derives derived)
  | greeted place =>
      obtain ⟨_, place', owner, secret⟩ := extended _ _ place
      rw [← owner, ← secret]
      exact Available.greeted place'
  | record value isHonest => exact Available.record value isHonest

/-- What could be offered still can. -/
theorem offers (extended : Extends world world') {greeting : setting.suite.Greeting}
    (offered : setting.Offers world greeting) : setting.Offers world' greeting :=
  ⟨extended.derives offered.derived, extended.available offered.available⟩

end Extends

/-! ## What every session keeps -/

/-- The secret of a session is its own and its owner is honest. A hello that it has accepted was
offered, on the accepting side before the session had a secret; until then it sends nothing. -/
structure SoundAt (world : setting.World) (index : Nat) (session : setting.suite.Session) :
    Prop where
  secret : session.secret = .session index
  owner : setting.honest session.owner
  offered : ∀ greeting, session.accepted = some greeting → setting.Offers world greeting
  accepts : ∀ greeting, session.accepted = some greeting →
    setting.suite.Accepts session.expected greeting
  earlier : session.side = .responder → ∀ greeting, session.accepted = some greeting →
    Derives (setting.Published index) greeting.ephemeral
  silent : session.accepted = none → session.sent = []

/-- Every session is sound. -/
def Sound (world : setting.World) : Prop :=
  ∀ index session, world[index]? = some session → SoundAt world index session

/-- A session stays sound. -/
theorem SoundAt.mono {world world' : setting.World} {index : Nat}
    {session : setting.suite.Session} (holds : SoundAt world index session)
    (extended : Extends world world') : SoundAt world' index session :=
  { holds with
    offered := fun greeting accepted => extended.offers (holds.offered greeting accepted) }

namespace Sound

variable {world : setting.World} (sound : Sound world)

include sound

/-- A new session that is sound. -/
theorem append {session : setting.suite.Session} (fresh : SoundAt world world.length session) :
    Sound (world ++ [session]) := by
  intro index found place
  rw [List.getElem?_append] at place
  split at place
  · exact (sound index found place).mono (Extends.append session)
  · rw [List.getElem?_singleton] at place
    split at place
    · cases place
      obtain rfl : index = world.length := by omega
      exact fresh.mono (Extends.append session)
    · cases place

/-- A session that has gone on and is sound. -/
theorem set {index : Nat} {session session' : setting.suite.Session}
    (place : world[index]? = some session) (owner : session'.owner = session.owner)
    (changed : SoundAt world index session') : Sound (world.set index session') := by
  have extended := Extends.set place owner
    (changed.secret.trans (sound index session place).secret.symm)
  intro other found place'
  by_cases same : index = other
  · subst same
    rw [List.getElem?_set_self (List.getElem?_eq_some_iff.mp place).1] at place'
    cases place'
    exact changed.mono extended
  · rw [List.getElem?_set_ne same] at place'
    exact (sound other found place').mono extended

/-- Whatever happens next, every session is sound. -/
theorem step {trace : List setting.Act} {act : setting.Act} {world' : setting.World}
    (taken : Step trace world act world') : Sound world' := by
  cases act with
  | initiate owner expected =>
      obtain ⟨isHonest, rfl⟩ := taken
      refine sound.append ⟨rfl, isHonest, ?_, ?_, ?_, fun _ => rfl⟩
      · intro _ accepted
        cases accepted
      · intro _ accepted
        cases accepted
      · intro responds
        cases responds
  | respond owner greeting =>
      obtain ⟨isHonest, offers, accepts, rfl⟩ := taken
      refine sound.append ⟨rfl, isHonest, ?_, ?_, ?_, fun waiting => by cases waiting⟩
      · intro found accepted
        cases accepted
        exact offers
      · intro found accepted
        cases accepted
        exact accepts
      · intro _ found accepted
        cases accepted
        exact offers.derived
  | complete index greeting =>
      obtain ⟨session, place, dials, waiting, offers, accepts, rfl⟩ := taken
      have before := sound index session place
      refine sound.set place rfl ⟨before.secret, before.owner, ?_, ?_, ?_,
        fun waiting => by cases waiting⟩
      · intro found accepted
        cases accepted
        exact offers
      · intro found accepted
        cases accepted
        exact accepts
      · intro responds
        cases dials.symm.trans responds
  | send index message =>
      obtain ⟨session, place, opened, rfl⟩ := taken
      exact sound.set place rfl { sound index session place with
        silent := fun waiting => absurd waiting opened }

end Sound

/-- Every world that can be reached is sound. -/
theorem sound_of_runs {trace : List setting.Act} {world : setting.World}
    (run : Runs Step [] trace world) : Sound world :=
  run.invariant Sound (fun _ _ place => by cases place) fun _ _ _ _ sound => sound.step

/-! ## What a hello under an honest name carries -/

/-- **Unforgeability.** A hello that verifies under an honest `PeerId` carries the ephemeral key
of a session of that identity, or a digest that the identity has signed. -/
theorem Sound.exists_session_of_honest {world : setting.World} (sound : Sound world)
    {greeting : setting.suite.Greeting} (available : setting.Available world greeting.signature)
    (verified : setting.suite.verifies greeting.peer greeting.ephemeral greeting.signature)
    (isHonest : setting.honest greeting.peer) :
    (∃ index session, world[index]? = some session ∧ session.owner = greeting.peer ∧
      greeting.ephemeral = Element.ofSecret (.session index)) ∨
    ∃ value, greeting.ephemeral = Element.ofSecret (.digest value) := by
  rw [verified] at available
  generalize signatureIs : (greeting.peer.signing, greeting.ephemeral) = signature at available
  cases available with
  | own isCompromised _ =>
      cases signatureIs
      exact absurd isCompromised (setting.uncompromised _ isHonest)
  | @greeted index session place =>
      obtain ⟨signer, message⟩ := Prod.mk.inj signatureIs
      have holds := sound index session place
      refine Or.inl ⟨index, session, place, ?_, ?_⟩
      · exact setting.determined _ _ holds.owner isHonest signer.symm
      · rw [message, holds.secret]
  | record value _ => exact Or.inr ⟨value, (Prod.mk.inj signatureIs).2⟩

end Setting

end Symbolic

end ReVault
