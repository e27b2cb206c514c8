import ReVault.Net.Agreement

/-!
# Keys, sides and nonces

Two ends keep their nonces apart by their parities, which are those of a dialling and an
accepting session. An attacker can bring the hellos of two dialling sessions to each other, or a
null key to any number of sessions; then two sessions of one side share a key. Nothing
else brings that about: of two accepting sessions, the one that is started first has accepted
its hello before the other has a secret.
-/

namespace ReVault

open Foundation Foundation.Element Wire SecureChannel

/-- The parities differ. -/
theorem Side.parity_injective {side side' : Side} (same : side.parity = side'.parity) :
    side = side' := by
  cases side <;> cases side'
  · rfl
  · exact absurd same (by decide)
  · exact absurd same (by decide)
  · rfl

/-- The parity of a nonce is that of its side, even where the counter has come round. -/
theorem Wire.parity_number (side : Side) (count : Nat) :
    (number side count).toNat % 2 = side.parity.toNat := by
  have doubled : (UInt64.ofNat count * 2).toNat % 2 = 0 := by
    rw [UInt64.toNat_mul]
    change _ * 2 % 2 ^ 64 % 2 = 0
    omega
  have small : side.parity.toUInt64.toNat = side.parity.toNat := UInt8.toNat_toUInt64 _
  have bit : side.parity.toNat < 2 := by cases side <;> decide
  unfold number
  rw [UInt64.toNat_add, small]
  omega

/-- The two ends never use the same nonce. -/
theorem Wire.side_eq_of_nonce {side side' : Side} {count count' : Nat}
    (same : nonceOf (number side count) = nonceOf (number side' count')) : side = side' := by
  refine Side.parity_injective (UInt8.toNat_inj.mp ?_)
  rw [← parity_number side count, ← parity_number side' count', nonceOf_injective same]

namespace Symbolic.Setting

variable {setting : Setting} {world : setting.World}

/-- Different sessions that share a key have opposite parities, and no two messages are sent
under one key and one nonce. -/
structure Apart (world : setting.World) : Prop where
  parities : ∀ (index index' : Nat) (session session' : setting.suite.Session),
    world[index]? = some session → world[index']? = some session' → index ≠ index' →
      Share session session' → session.side.parity ≠ session'.side.parity
  nonces : ∀ (index index' : Nat) (session session' : setting.suite.Session),
    world[index]? = some session → world[index']? = some session' → Share session session' →
      ∀ count count', count < session.sent.length → count' < session'.sent.length →
        nonceOf (number session.side count) = nonceOf (number session'.side count') →
        index = index' ∧ count = count'

/-- No two dialling sessions have accepted each other's keys, no two sessions of one side a null
key, and no session has sent more messages than there are nonces of its parity. -/
structure Uncrossed (world : setting.World) : Prop where
  dialled : ∀ (index index' : Nat) (session session' : setting.suite.Session),
    world[index]? = some session → world[index']? = some session' → index ≠ index' →
      session.side = .initiator → session'.side = .initiator → ∀ greeting greeting',
        session.accepted = some greeting → session'.accepted = some greeting' → ∀ scalar,
          greeting.ephemeral = power scalar {session'.secret} →
          greeting'.ephemeral ≠ power scalar {session.secret}
  null : ∀ (index index' : Nat) (session session' : setting.suite.Session),
    world[index]? = some session → world[index']? = some session' → index ≠ index' →
      session.side = session'.side → ∀ greeting greeting',
        session.accepted = some greeting → session'.accepted = some greeting' →
          greeting.ephemeral = null → greeting'.ephemeral ≠ null
  few : ∀ session ∈ world, session.sent.length ≤ 2 ^ 63

/-- A session that accepts connections and meets another one was started after it. -/
theorem Sound.lt_of_meet (sound : Sound world) {index index' : Nat}
    {session session' : setting.suite.Session} {greeting : setting.suite.Greeting}
    {scalar : setting.Scalar} (place : world[index]? = some session)
    (place' : world[index']? = some session') (responds : session.side = .responder)
    (accepted : session.accepted = some greeting)
    (same : greeting.ephemeral = power scalar {session'.secret}) : index' < index := by
  rw [(sound index' session' place').secret] at same
  exact ((sound index session place).earlier responds greeting accepted).published_of_eq same

/-- Two ends that share a key have different parities when nothing was crossed. -/
theorem Uncrossed.parities (uncrossed : Uncrossed world) (sound : Sound world)
    {index index' : Nat} {session session' : setting.suite.Session}
    (place : world[index]? = some session) (place' : world[index']? = some session')
    (different : index ≠ index') (shares : Share session session') :
    session.side.parity ≠ session'.side.parity := by
  intro parity
  have sides := Side.parity_injective parity
  obtain ⟨greeting, greeting', accepted, accepted', crossed⟩ :=
    (sound.share_iff place place' different).mp shares
  rcases crossed with ⟨isNull, isNull'⟩ | ⟨scalar, single, single'⟩
  · exact uncrossed.null index index' session session' place place' different sides greeting
      greeting' accepted accepted' isNull isNull'
  · cases side : session.side with
    | initiator =>
        exact uncrossed.dialled index index' session session' place place' different side
          (sides.symm.trans side) greeting greeting' accepted accepted' scalar single single'
    | responder =>
        have before := sound.lt_of_meet place place' side accepted single
        have after := sound.lt_of_meet place' place (sides.symm.trans side) accepted' single'
        omega

/-- **Parities.** In every reachable world, sessions that share a key have opposite parities and
no nonce is taken twice under one key, exactly when no keys have been crossed. -/
theorem apart_iff {trace : List setting.Act} (run : Runs Step [] trace world) :
    Apart world ↔ Uncrossed world := by
  have sound := sound_of_runs run
  constructor
  · intro apart
    refine ⟨?_, ?_, ?_⟩
    · intro index index' session session' place place' different dials dials' greeting greeting'
        accepted accepted' scalar single single'
      have shares := (sound.share_iff place place' different).mpr
        ⟨greeting, greeting', accepted, accepted', Or.inr ⟨scalar, single, single'⟩⟩
      refine apart.parities index index' session session' place place' different shares ?_
      rw [dials, dials']
    · intro index index' session session' place place' different sides greeting greeting'
        accepted accepted' isNull isNull'
      have shares := (sound.share_iff place place' different).mpr
        ⟨greeting, greeting', accepted, accepted', Or.inl ⟨isNull, isNull'⟩⟩
      refine apart.parities index index' session session' place place' different shares ?_
      rw [sides]
    · intro session member
      obtain ⟨index, place⟩ := List.mem_iff_getElem?.mp member
      by_contra many
      have numbered : 2 ^ 63 < session.sent.length := Nat.lt_of_not_le many
      have keyed : Share session session := by
        cases accepted : session.accepted with
        | none =>
            rw [(sound index session place).silent accepted] at numbered
            cases numbered
        | some greeting =>
            exact ⟨_, congrArg (Option.map _) accepted, congrArg (Option.map _) accepted⟩
      -- the counter is doubled modulo 2^64, so it comes back after 2^63 messages
      have wraps : number session.side 0 = number session.side (2 ^ 63) := by
        cases session.side <;> rfl
      have same := (apart.nonces index index session session place place keyed 0 (2 ^ 63)
        (by omega) numbered (congrArg nonceOf wraps)).2
      omega
  · intro uncrossed
    refine ⟨fun index index' session session' place place' different shares =>
      uncrossed.parities sound place place' different shares, ?_⟩
    intro index index' session session' place place' shares count count' below below' same
    have few := uncrossed.few session (List.mem_iff_getElem?.mpr ⟨index, place⟩)
    have few' := uncrossed.few session' (List.mem_iff_getElem?.mpr ⟨index', place'⟩)
    obtain ⟨sides, counts⟩ := number_injective (by omega) (by omega) (nonceOf_injective same)
    refine ⟨?_, counts⟩
    by_contra different
    exact uncrossed.parities sound place place' different shares (congrArg Side.parity sides)

end Symbolic.Setting

namespace Symbolic

open Setting

/-- Two honest parties dial each other, and the attacker brings each hello to the other session.
Both sessions hold one key and send under the same nonces. -/
theorem parities_broken : ∃ trace world, Runs Step ([] : threeParties.World) trace world ∧
    ¬Apart world := by
  let back := threeParties.suite.greet ⟨1, 1⟩ (.session 1)
  have dialled := runs_initiate runs_dial ⟨1, 1⟩ ⟨0, 0⟩ (Or.inr rfl)
  have completed := runs_complete dialled 0 back rfl rfl rfl (offers_greet 1 rfl rfl rfl)
    ⟨rfl, fun _ same => Option.some.inj same⟩
  have crossed := runs_complete completed 1 hello rfl rfl rfl (offers_greet 0 rfl rfl rfl)
    ⟨rfl, fun _ same => Option.some.inj same⟩
  refine ⟨_, _, crossed, fun apart => ?_⟩
  exact apart.parities 0 1 _ _ rfl rfl Nat.zero_ne_one
    ⟨_, rfl, congrArg some (agree_ofSecret _ _)⟩ rfl

/-- After a handshake the nonces of the two ends are apart. -/
theorem apart_iff_handshake : ∃ trace world, Runs Step ([] : threeParties.World) trace world ∧
    world.map (fun session => session.sent) = [[[7]], [[8]]] ∧ Apart world := by
  obtain ⟨_, run⟩ := runs_handshake
  have asked := runs_send run 0 [7] rfl (Option.some_ne_none _)
  have answered := runs_send asked 1 [8] rfl (Option.some_ne_none _)
  refine ⟨_, _, answered, rfl, (apart_iff answered).mpr ⟨?_, ?_, ?_⟩⟩
  · intro index index' session session' place place' different dials dials'
    match index, index' with
    | 0, 0 => exact absurd rfl different
    | 1, _ =>
        cases place
        cases dials
    | 0, 1 =>
        cases place'
        cases dials'
    | 0, _ + 2 => cases place'
    | _ + 2, _ => cases place
  · intro index index' session session' place place' different sides
    match index, index' with
    | 0, 0 => exact absurd rfl different
    | 1, 1 => exact absurd rfl different
    | 0, 1 =>
        cases place
        cases place'
        cases sides
    | 1, 0 =>
        cases place
        cases place'
        cases sides
    | 0, _ + 2 => cases place'
    | 1, _ + 2 => cases place'
    | _ + 2, _ => cases place
  · intro session member
    have messages : session.sent.length = 1 := by
      rcases List.mem_cons.mp member with rfl | member
      · rfl
      · cases List.mem_singleton.mp member
        rfl
    rw [messages]
    decide

end Symbolic

end ReVault
