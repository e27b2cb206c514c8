import ReVault.Net.Exchange

/-!
# What a peer that joins takes

A dialling session expects a peer. When that peer is honest, the hello that the session accepts
carries the public value of a session of the peer, or a digest that the peer has signed. The
attacker derives the key in neither case, and only a session of the peer that has accepted the
dialling one's own value can share it. So an old hello that is brought again, or a signed
record, leads to nothing that can be received.
-/

namespace ReVault

open Foundation Foundation.Element Primitives SecureChannel Wire

/-! ## What is stored -/

section

variable [Primitives]

/-- A response changes the local file only to a container that it carries. -/
theorem storeReplica_stores (myIdentity : Identity) (responseBytes : Bytes)
    (localFile : Option Bytes) :
    finalState (storeReplica myIdentity responseBytes localFile) = localFile ∨
      ∃ bytes, SyncMessage.decode responseBytes = .ok (.fullSync bytes) ∧
        finalState (storeReplica myIdentity responseBytes localFile) = some bytes := by
  cases decoded : SyncMessage.decode responseBytes with
  | error reason =>
      have failed : storeReplica myIdentity responseBytes localFile =
          .error (.error reason) localFile := observe_bind_of_error (by rw [decoded]; rfl)
      exact Or.inl (congrArg finalState failed)
  | ok message =>
      have read : observe (fun _ : Option Bytes => checked (SyncMessage.decode responseBytes))
          localFile = .ok message localFile := observe_of_ok (by rw [decoded]; rfl)
      have start : storeReplica myIdentity responseBytes localFile = _ := bind_of_ok read
      cases message with
      | fullSync bytes =>
          refine Or.inr ⟨bytes, rfl, (congrArg finalState start).trans ?_⟩
          change finalState (observe (fun _ => Vault.openAsRecipient bytes myIdentity)
            (some bytes)) = _
          unfold observe
          split <;> rfl
      | _ => exact Or.inl (congrArg finalState start)

/-- Joining changes the local file only to a container that a session received which expects
the admin. -/
theorem join_stores (ephemeral : ByteArr 32) (myIdentity : Identity) (expectedAdmin : PeerId)
    (joining : Joining) :
    (finalState (join ephemeral myIdentity expectedAdmin joining)).localFile =
        joining.localFile ∨
      ∃ (session : byteSuite.Session) (ciphertext plaintext bytes : Bytes),
        session.side = .initiator ∧ session.owner = myIdentity ∧ session.secret = ephemeral ∧
        session.expected = some expectedAdmin ∧
        (∃ greeting, session.accepted = some greeting ∧
          byteSuite.Accepts session.expected greeting) ∧
        session.Receives byteCipher 0 ciphertext plaintext ∧
        SyncMessage.decode plaintext = .ok (.fullSync bytes) ∧
        (finalState (join ephemeral myIdentity expectedAdmin joining)).localFile =
          some bytes := by
  unfold join
  cases requested : requestReplica ephemeral myIdentity expectedAdmin joining.stream with
  | error fault reached =>
      rw [bind_of_error (within_of_error requested)]
      exact Or.inl rfl
  | ok plaintext reached =>
      rw [bind_of_ok (within_of_ok requested), finalState_within]
      rcases storeReplica_stores myIdentity plaintext joining.localFile with
        kept | ⟨bytes, decoded, stored⟩
      · exact Or.inl kept
      · obtain ⟨hello, ciphertext, accepts, received⟩ := requestReplica_eq_ok requested
        exact Or.inr ⟨_, ciphertext, plaintext, bytes, rfl, rfl, rfl, rfl,
          ⟨_, rfl, accepts⟩, received, decoded, stored⟩

end

namespace Symbolic.Setting

variable {setting : Setting} {world : setting.World}

/-! ## Hellos under an honest name -/

namespace Sound

variable (sound : Sound world) {index index' : Nat} {session session' : setting.suite.Session}
  {greeting : setting.suite.Greeting}

include sound

/-- The hello that a session has accepted under an honest name carries the public value of one
secret. -/
theorem exists_ofSecret (place : world[index]? = some session)
    (accepted : session.accepted = some greeting) (isHonest : setting.honest greeting.peer) :
    ∃ secret, greeting.ephemeral = Element.ofSecret secret := by
  have holds := sound index session place
  rcases sound.exists_session_of_honest (holds.offered greeting accepted).available
    (holds.accepts greeting accepted).1 isHonest with
    ⟨signed, _, _, _, same⟩ | ⟨value, same⟩
  · exact ⟨.session signed, same⟩
  · exact ⟨.digest value, same⟩

/-- The attacker does not derive the key of a session that has accepted a hello under an honest
name. -/
theorem not_derives (place : world[index]? = some session)
    (accepted : session.accepted = some greeting) (isHonest : setting.honest greeting.peer)
    {key : setting.suite.Key} (held : session.key = some key)
    (published : Atom setting.Digest → Prop) : ¬Derives published key := by
  intro derived
  obtain ⟨secret, single⟩ := sound.exists_ofSecret place accepted isHonest
  rw [Suite.Session.key, accepted] at held
  have keyIs : key = power 1 (session.secret ::ₘ {secret}) :=
    (Option.some.inj held).symm.trans (congrArg (agree session.secret) single)
  -- the key is made of two secrets, and everything derived of one at most
  rcases derived.shape with isNull | ⟨_, plain⟩ | ⟨_, _, _, one⟩
  · cases keyIs.symm.trans isNull
  · exact absurd (power.inj (keyIs.symm.trans plain)).2 Multiset.cons_ne_zero
  · have cards := congrArg Multiset.card (power.inj (keyIs.symm.trans one)).2
    rw [Multiset.card_cons, Multiset.card_singleton, Multiset.card_singleton] at cards
    cases cards

/-- Where a session has accepted a hello under an honest name, another shares its key only when
the hello carries that one's public value, its owner is the peer named, and it has accepted the
public value of the first. -/
theorem exists_crossed (place : world[index]? = some session)
    (place' : world[index']? = some session') (different : index ≠ index')
    (shares : Share session session') (accepted : session.accepted = some greeting)
    (isHonest : setting.honest greeting.peer) :
    greeting.peer = session'.owner ∧
      greeting.ephemeral = setting.suite.ofSecret session'.secret ∧
      ∃ greeting', session'.accepted = some greeting' ∧
        greeting'.ephemeral = setting.suite.ofSecret session.secret := by
  obtain ⟨found, greeting', meet⟩ := (sound.share_iff place place' different).mp shares
  cases meet.accepted.symm.trans accepted
  have owner := sound.owner_of_meet place place' meet isHonest
  obtain ⟨secret, single⟩ := sound.exists_ofSecret place accepted isHonest
  rcases meet.crossed with ⟨isNull, _⟩ | ⟨scalar, same, same'⟩
  · cases isNull.symm.trans single
  · obtain ⟨rfl, _⟩ := power.inj (single.symm.trans same)
    exact ⟨owner, same, greeting', meet.accepted', same'⟩

end Sound

/-! ## Dialling sessions -/

/-- A session of the peer that a dialling session expects holds the other end, and has written
a message. -/
structure Answers (peer : setting.suite.Peer) (session responder : setting.suite.Session)
    (plaintext : Bytes) : Prop where
  responds : responder.side = .responder
  owner : setting.suite.peer responder.owner = peer
  ephemeral : ∃ greeting, session.accepted = some greeting ∧
    greeting.ephemeral = setting.suite.ofSecret responder.secret
  received : ∃ greeting, responder.accepted = some greeting ∧
    greeting.ephemeral = setting.suite.ofSecret session.secret
  wrote : Wrote responder plaintext

/-- A session dials an honest peer. -/
structure Dials (world : setting.World) (index : Nat) (session : setting.suite.Session)
    (peer : setting.suite.Peer) : Prop where
  place : world[index]? = some session
  dials : session.side = .initiator
  expected : session.expected = some peer
  isHonest : setting.honest peer

/-- What a session that dials an honest peer receives is the answer of that peer. Nothing is
received after a hello of a session that was started earlier or has read another hello, nor
after a signed digest. -/
structure Pinned (exchange : setting.Exchange) : Prop where
  answered : ∀ index session peer, Dials exchange.world index session peer →
    ∀ plaintext, some plaintext ∈ exchange.attempts index →
      ∃ responder ∈ exchange.world, Answers peer session responder plaintext
  replayed : ∀ index session peer, Dials exchange.world index session peer →
    ∀ index' older greeting, exchange.world[index']? = some older →
      session.accepted = some greeting →
      greeting.ephemeral = setting.suite.ofSecret older.secret →
      (index' < index ∨ ∃ greeting', older.accepted = some greeting' ∧
        greeting'.ephemeral ≠ setting.suite.ofSecret session.secret) →
      ∀ plaintext, some plaintext ∉ exchange.attempts index
  record : ∀ index session peer, Dials exchange.world index session peer →
    ∀ greeting value, session.accepted = some greeting →
      greeting.ephemeral = setting.suite.ofSecret (.digest value) →
      ∀ plaintext, some plaintext ∉ exchange.attempts index

namespace Traced

variable {exchange : setting.Exchange} (traced : Traced exchange) (sound : Sound exchange.world)
  {index : Nat} {session : setting.suite.Session} {peer : setting.suite.Peer}
  (dials : Dials exchange.world index session peer) {plaintext : Bytes}
  (received : some plaintext ∈ exchange.attempts index)

include traced sound dials received

/-- What a session that dials an honest peer has received, a session of that peer wrote. -/
theorem exists_answers : ∃ (index' : Nat) (responder : setting.suite.Session),
    exchange.world[index']? = some responder ∧
      Answers peer session responder plaintext := by
  obtain ⟨found, place, origin⟩ := traced index plaintext received
  cases place.symm.trans dials.place
  have held : ∃ key, session.key = some key := by
    cases origin with
    | attacker held _ => exact ⟨_, held⟩
    | sender _ _ shares _ => exact shares.imp fun _ both => both.1
  obtain ⟨greeting, accepted, _⟩ := Option.map_eq_some_iff.mp held.choose_spec
  obtain rfl : greeting.peer = peer :=
    ((sound index session place).accepts greeting accepted).2 peer dials.expected
  cases origin with
  | attacker held derived =>
      exact absurd derived (sound.not_derives place accepted dials.isHonest held _)
  | @sender index' responder place' other shares wrote =>
      have responds : responder.side = .responder := by rw [other, dials.dials]; rfl
      have different : index ≠ index' := by
        rintro rfl
        cases place.symm.trans place'
        cases dials.dials.symm.trans responds
      obtain ⟨owner, same, crossed⟩ :=
        sound.exists_crossed place place' different shares accepted dials.isHonest
      exact ⟨index', responder, place', responds, owner.symm, ⟨greeting, accepted, same⟩, crossed,
        wrote⟩

/-- The session that answered was started later. -/
theorem exists_later : ∃ (index' : Nat) (responder : setting.suite.Session),
    exchange.world[index']? = some responder ∧ index < index' ∧
      Answers peer session responder plaintext := by
  obtain ⟨index', responder, place, answers⟩ := traced.exists_answers sound dials received
  obtain ⟨greeting, accepted, same⟩ := answers.received
  exact ⟨index', responder, place,
    sound.lt_of_meet place dials.place answers.responds accepted same, answers⟩

end Traced

/-- **Pinning.** In every run, what is received by a session that dials an honest peer was
written by a session of that peer which holds the other end, and nothing is received after an
old hello or a signed digest. -/
theorem pinned_of_runs {trace : List setting.Event} {exchange : setting.Exchange}
    (run : Runs Exchanged setting.silence trace exchange) : Pinned exchange := by
  have traced := traced_of_runs run
  obtain ⟨_, sessions⟩ := exists_runs run
  have sound := sound_of_runs sessions
  refine ⟨?_, ?_, ?_⟩
  · intro index session peer dials plaintext received
    obtain ⟨index', responder, place, answers⟩ := traced.exists_answers sound dials received
    exact ⟨responder, List.mem_iff_getElem?.mpr ⟨index', place⟩, answers⟩
  · intro index session peer dials index' older greeting place accepted same stale plaintext
      received
    obtain ⟨later, responder, place', after, answers⟩ :=
      traced.exists_later sound dials received
    obtain ⟨found, accepted', same'⟩ := answers.ephemeral
    cases accepted'.symm.trans accepted
    -- the hello is that of the session that answered, so the older session is that one
    have secrets : older.secret = responder.secret :=
      Multiset.singleton_inj.mp (power.inj (same.symm.trans same')).2
    obtain rfl := sound.index_eq place place' secrets
    cases place.symm.trans place'
    rcases stale with before | ⟨greeting', read, other⟩
    · omega
    · obtain ⟨own, read', crossed⟩ := answers.received
      cases read.symm.trans read'
      exact other crossed
  · intro index session peer dials greeting value accepted same plaintext received
    obtain ⟨index', responder, place, answers⟩ := traced.exists_answers sound dials received
    obtain ⟨found, accepted', same'⟩ := answers.ephemeral
    cases accepted'.symm.trans accepted
    have secrets : Atom.digest value = responder.secret :=
      Multiset.singleton_inj.mp (power.inj (same.symm.trans same')).2
    cases secrets.trans (sound index' responder place).secret

end Symbolic.Setting

namespace Symbolic

open Setting

/-- The accepting session of a handshake answers, and the dialling one receives the answer. -/
theorem pinned_of_runs_answer : ∃ trace exchange,
    Runs Exchanged threeParties.silence trace exchange ∧
      exchange.attempts 0 = [some [8]] ∧ Pinned exchange := by
  obtain ⟨_, run⟩ := runs_handshake
  have answered := runs_send run 1 [8] rfl (Option.some_ne_none _)
  let responder : threeParties.suite.Session :=
    ⟨.responder, ⟨1, 1⟩, .session 1, none, some hello, [[8]]⟩
  have place : [⟨.initiator, ⟨0, 0⟩, .session 0, some ⟨1, 1⟩, some answer, []⟩, responder][1]? =
      some responder := rfl
  have first : responder.sent[0]? = some [8] := rfl
  have received := runs_recv (exchanged_of_runs answered) 0 rfl
    (.written place rfl first ⟨List.mem_cons_self, by decide⟩)
    ⟨_, congrArg some (agree_ofSecret _ _), rfl⟩
  exact ⟨_, _, received, rfl, pinned_of_runs received⟩

end Symbolic

end ReVault
