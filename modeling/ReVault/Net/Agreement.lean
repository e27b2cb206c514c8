import ReVault.Net.Attacker

/-!
# Who holds the other end

Two sessions hold one key exactly when each has accepted the ephemeral key of the other, equally
scaled, or both have accepted a null one. The hello that brought it need not be under the
`PeerId` of the other: an attacker signs an ephemeral key of somebody else, or replaces the
encryption key of a `PeerId`. And two sessions that both dialled accept each other's hellos.
-/

namespace ReVault

open Foundation Foundation.Element Wire

namespace Symbolic.Setting

variable {setting : Setting} {world : setting.World}

/-- Two sessions have accepted hellos with each other's ephemeral keys. -/
structure Meet (session session' : setting.suite.Session)
    (greeting greeting' : setting.suite.Greeting) : Prop where
  accepted : session.accepted = some greeting
  accepted' : session'.accepted = some greeting'
  crossed : Crossed session.secret greeting.ephemeral session'.secret greeting'.ephemeral

/-- A meeting, from the other end. -/
theorem Meet.symm {session session' : setting.suite.Session}
    {greeting greeting' : setting.suite.Greeting}
    (meet : Meet session session' greeting greeting') : Meet session' session greeting' greeting :=
  ⟨meet.accepted', meet.accepted, meet.crossed.symm⟩

/-- Who the other end is. -/
theorem Meet.peer_eq {session session' : setting.suite.Session}
    {greeting greeting' : setting.suite.Greeting}
    (meet : Meet session session' greeting greeting') :
    session.peer = some greeting.peer :=
  congrArg (Option.map _) meet.accepted

/-- Two sessions hold one key. -/
def Share (session session' : setting.suite.Session) : Prop :=
  ∃ key, session.key = some key ∧ session'.key = some key

namespace Sound

variable (sound : Sound world) {index index' : Nat} {session session' : setting.suite.Session}
  {greeting greeting' : setting.suite.Greeting}

include sound

/-- Sessions with one secret are one session. -/
theorem index_eq (place : world[index]? = some session) (place' : world[index']? = some session')
    (same : session.secret = session'.secret) : index = index' := by
  rw [(sound index session place).secret, (sound index' session' place').secret] at same
  exact Atom.session.inj same

/-- Different sessions share a key exactly when they meet. -/
theorem share_iff (place : world[index]? = some session)
    (place' : world[index']? = some session') (different : index ≠ index') :
    Share session session' ↔ ∃ greeting greeting', Meet session session' greeting greeting' := by
  have secrets : session.secret ≠ session'.secret := fun same =>
    different (sound.index_eq place place' same)
  constructor
  · rintro ⟨key, held, held'⟩
    obtain ⟨greeting, accepted, rfl⟩ := Option.map_eq_some_iff.mp held
    obtain ⟨greeting', accepted', same⟩ := Option.map_eq_some_iff.mp held'
    have derived := ((sound index session place).offered greeting accepted).derived
    exact ⟨greeting, greeting', accepted, accepted',
      (agree_eq_iff derived secrets).mp same.symm⟩
  · rintro ⟨greeting, greeting', accepted, accepted', crossed⟩
    have derived := ((sound index session place).offered greeting accepted).derived
    refine ⟨_, Option.map_eq_some_iff.mpr ⟨greeting, accepted, rfl⟩,
      Option.map_eq_some_iff.mpr ⟨greeting', accepted', ?_⟩⟩
    exact ((agree_eq_iff derived secrets).mpr crossed).symm

/-- An honest identity whose hello brought the ephemeral key of a session is its owner. -/
theorem owner_of_meet (place : world[index]? = some session)
    (place' : world[index']? = some session') (meet : Meet session session' greeting greeting')
    (isHonest : setting.honest greeting.peer) : greeting.peer = session'.owner := by
  have holds := sound index session place
  have shape := sound.exists_session_of_honest (holds.offered greeting meet.accepted).available
    (holds.accepts greeting meet.accepted).1 isHonest
  have ofSession : ∀ secret, greeting.ephemeral = Element.ofSecret secret →
      secret = session'.secret := by
    intro secret same
    rcases meet.crossed with ⟨isNull, _⟩ | ⟨scalar, single, _⟩
    · cases isNull.symm.trans same
    · exact (Multiset.singleton_inj.mp (power.inj (single.symm.trans same)).2).symm
  rcases shape with ⟨signed, found, placed, owner, same⟩ | ⟨value, same⟩
  · have secret := ofSession _ same
    rw [← (sound signed found placed).secret] at secret
    obtain rfl := sound.index_eq placed place' secret
    cases placed.symm.trans place'
    exact owner.symm
  · cases (ofSession _ same).trans (sound index' session' place').secret

end Sound

/-! ## Whose the other end is -/

/-- A dialling and an accepting session that share a key return each other's owners. -/
def Agreement (world : setting.World) : Prop :=
  ∀ initiator ∈ world, ∀ responder ∈ world, initiator.side = .initiator →
    responder.side = .responder → Share initiator responder →
      responder.peer = some (setting.suite.peer initiator.owner) ∧
        initiator.peer = some (setting.suite.peer responder.owner)

/-- Where a dialling and an accepting session meet, the hellos are under honest names. -/
def Genuine (world : setting.World) : Prop :=
  ∀ initiator ∈ world, ∀ responder ∈ world, initiator.side = .initiator →
    responder.side = .responder → ∀ greeting greeting',
      Meet initiator responder greeting greeting' →
        setting.honest greeting.peer ∧ setting.honest greeting'.peer

/-- Two ends of different sides are different sessions. -/
theorem exists_places {initiator responder : setting.suite.Session} (member : initiator ∈ world)
    (member' : responder ∈ world) (dials : initiator.side = .initiator)
    (responds : responder.side = .responder) : ∃ index index' : Nat,
      world[index]? = some initiator ∧ world[index']? = some responder ∧ index ≠ index' := by
  obtain ⟨index, place⟩ := List.mem_iff_getElem?.mp member
  obtain ⟨index', place'⟩ := List.mem_iff_getElem?.mp member'
  refine ⟨index, index', place, place', ?_⟩
  intro same
  subst same
  cases place.symm.trans place'
  cases dials.symm.trans responds

/-- **Agreement.** In every reachable world, sessions that share a key agree on whose they are
exactly when no hello that made them meet was under a name that the attacker put there. -/
theorem agreement_iff {trace : List setting.Act} (run : Runs Step [] trace world) :
    Agreement world ↔ Genuine world := by
  have sound := sound_of_runs run
  constructor
  · intro agreement initiator member responder member' dials responds greeting greeting' meet
    obtain ⟨index, index', place, place', different⟩ :=
      exists_places member member' dials responds
    have shares := (sound.share_iff place place' different).mpr ⟨greeting, greeting', meet⟩
    obtain ⟨returned', returned⟩ :=
      agreement initiator member responder member' dials responds shares
    have peer : greeting.peer = responder.owner :=
      Option.some.inj (meet.peer_eq.symm.trans returned)
    have peer' : greeting'.peer = initiator.owner :=
      Option.some.inj (meet.symm.peer_eq.symm.trans returned')
    rw [peer, peer']
    exact ⟨(sound index' responder place').owner, (sound index initiator place).owner⟩
  · intro genuine initiator member responder member' dials responds shares
    obtain ⟨index, index', place, place', different⟩ :=
      exists_places member member' dials responds
    obtain ⟨greeting, greeting', meet⟩ := (sound.share_iff place place' different).mp shares
    obtain ⟨isHonest, isHonest'⟩ :=
      genuine initiator member responder member' dials responds greeting greeting' meet
    rw [meet.peer_eq, meet.symm.peer_eq, sound.owner_of_meet place place' meet isHonest,
      sound.owner_of_meet place' place meet.symm isHonest']
    exact ⟨rfl, rfl⟩

end Symbolic.Setting

namespace Symbolic

open Setting

/-! ## Three parties -/

/-- Two honest parties, and one whose keys the attacker holds. -/
abbrev threeParties : Setting where
  Signer := Nat
  Half := Nat
  Digest := Nat
  Scalar := Nat
  honest party := party = ⟨0, 0⟩ ∨ party = ⟨1, 1⟩
  compromised signer := signer = 2
  uncompromised := by
    rintro _ (rfl | rfl)
    · exact (by decide : ¬0 = 2)
    · exact (by decide : ¬1 = 2)
  determined := by
    rintro _ _ (rfl | rfl) (rfl | rfl) same
    · rfl
    · cases same
    · cases same
    · rfl

/-- The attacker can bring what a session has sent. -/
theorem offers_greet {world : threeParties.World} {greeting : threeParties.suite.Greeting}
    (index : Nat) {session : threeParties.suite.Session} (place : world[index]? = some session)
    (secret : session.secret = .session index)
    (same : greeting = threeParties.suite.greet session.owner (.session index)) :
    threeParties.Offers world greeting := by
  subst same
  rw [← secret]
  refine ⟨?_, Available.greeted place⟩
  rw [secret]
  exact Derives.ofSecret _ (List.getElem?_eq_some_iff.mp place).1

/-- The hello of the dialling side, and the answer to it. -/
abbrev hello : threeParties.suite.Greeting := threeParties.suite.greet ⟨0, 0⟩ (.session 0)

/-- What the responder greets with. -/
abbrev answer : threeParties.suite.Greeting := threeParties.suite.greet ⟨1, 1⟩ (.session 1)

/-- An honest party dials the other. -/
theorem runs_dial : Runs Step ([] : threeParties.World) [.initiate ⟨0, 0⟩ ⟨1, 1⟩]
    [⟨.initiator, ⟨0, 0⟩, .session 0, some ⟨1, 1⟩, none, []⟩] :=
  runs_initiate (Runs.nil : Runs Step ([] : threeParties.World) _ _) ⟨0, 0⟩ ⟨1, 1⟩ (Or.inl rfl)

/-- The hellos of the two arrive unchanged. -/
theorem runs_handshake : ∃ trace, Runs Step ([] : threeParties.World) trace
    [⟨.initiator, ⟨0, 0⟩, .session 0, some ⟨1, 1⟩, some answer, []⟩,
      ⟨.responder, ⟨1, 1⟩, .session 1, none, some hello, []⟩] := by
  have answered := runs_respond runs_dial ⟨1, 1⟩ hello (Or.inr rfl)
    (offers_greet 0 rfl rfl rfl) ⟨rfl, fun _ same => by cases same⟩
  exact ⟨_, runs_complete answered 0 answer rfl rfl rfl (offers_greet 1 rfl rfl rfl)
    ⟨rfl, fun _ same => Option.some.inj same⟩⟩

/-- The attacker forwards the hello of a dialling session under its own name. The two ends share
a key, and the accepting one takes the other for the attacker. -/
theorem agreement_broken : ∃ trace world, Runs Step ([] : threeParties.World) trace world ∧
    ¬Agreement world := by
  let forwarded := threeParties.suite.greet ⟨2, 2⟩ (.session 0)
  have derived : Derives (threeParties.Published 1) forwarded.ephemeral :=
    Derives.ofSecret _ Nat.one_pos
  have answered := runs_respond runs_dial ⟨1, 1⟩ forwarded (Or.inr rfl)
    ⟨derived, Available.own rfl derived⟩ ⟨rfl, fun _ same => by cases same⟩
  have completed := runs_complete answered 0 answer rfl rfl rfl (offers_greet 1 rfl rfl rfl)
    ⟨rfl, fun _ same => Option.some.inj same⟩
  refine ⟨_, _, completed, fun agreement => ?_⟩
  have agreed := agreement _ List.mem_cons_self _
    (List.mem_cons_of_mem _ List.mem_cons_self) rfl rfl
    ⟨_, rfl, congrArg some (agree_ofSecret _ _)⟩
  cases agreed.1

/-- After a handshake the two ends agree. -/
theorem agreement_iff_handshake : ∃ trace world, Runs Step ([] : threeParties.World) trace world ∧
    world.length = 2 ∧ Agreement world := by
  obtain ⟨trace, run⟩ := runs_handshake
  refine ⟨_, _, run, rfl, (agreement_iff run).mpr ?_⟩
  intro initiator member responder member' dials responds greeting greeting' meet
  simp only [List.mem_cons, List.not_mem_nil, or_false] at member member'
  rcases member with rfl | rfl
  · rcases member' with rfl | rfl
    · cases responds
    · cases meet.accepted
      cases meet.accepted'
      exact ⟨Or.inr rfl, Or.inl rfl⟩
  · cases dials

end Symbolic

end ReVault
