import ReVault.Net.Parity
import ReVault.Net.Sync

/-!
# What sessions receive

A session that holds a key tries to decrypt every frame that it reads, each under the next nonce
of the other parity. Between symbolic sessions the attacker brings every ciphertext: one that it
makes under a key that it derives, or one that a session has written. Whatever it does, what a
session receives was sent by a session of the other side that shares its key, unless the attacker
derives that key.
-/

namespace ReVault

open Foundation Foundation.Element Primitives SecureChannel Wire

/-- An encryption under the keys of a suite, as far as receiving goes. -/
structure Cipher (Key : Type) where
  Ciphertext : Type
  Opens : Key → ByteArr nonceLen → Ciphertext → Bytes → Prop

/-- A session that has tried to decrypt so many frames receives a plaintext from the next. -/
def Suite.Session.Receives {suite : Suite} (session : suite.Session) (cipher : Cipher suite.Key)
    (attempts : Nat) (ciphertext : cipher.Ciphertext) (plaintext : Bytes) : Prop :=
  ∃ key, session.key = some key ∧
    cipher.Opens key (nonceOf (number session.side.other attempts)) ciphertext plaintext

/-! ## Over byte strings -/

section

variable [Primitives]

/-- The encryption of the code. -/
abbrev byteCipher : Cipher MasterKey where
  Ciphertext := Bytes
  Opens key nonce ciphertext plaintext :=
    aesGcmDecrypt key nonce [] ciphertext = some plaintext

namespace SecureChannel

/-- The code receives a plaintext exactly by reading a frame that opens to it. -/
theorem recv_eq_ok_iff {channel reached : SecureChannel} {plaintext : Bytes} :
    recv channel = .ok plaintext reached ↔
      ∃ ciphertext rest, Stream.readFrame channel.stream = .ok ciphertext rest ∧
        byteCipher.Opens channel.key (nonceOf channel.recvNumber) ciphertext plaintext ∧
        reached = { channel with stream := rest, recvCounter := channel.recvCounter + 1 } := by
  cases read : Stream.readFrame channel.stream with
  | error error rest =>
      rw [recv_of_unread read]
      simp only [reduceCtorEq, false_and, exists_false]
  | ok ciphertext rest =>
      rw [recv_of_read read, observe_eq_ok_iff]
      have decrypts : decrypt (nonceOf channel.recvNumber) ciphertext
          { channel with stream := rest, recvCounter := channel.recvCounter + 1 } =
            .ok plaintext ↔
          byteCipher.Opens channel.key (nonceOf channel.recvNumber) ciphertext plaintext := by
        unfold decrypt
        dsimp only
        cases aesGcmDecrypt channel.key (nonceOf channel.recvNumber) [] ciphertext with
        | none => simp only [reduceCtorEq]
        | some found => simp only [Except.ok.injEq, Option.some.injEq]
      rw [decrypts]
      constructor
      · rintro ⟨opens, rfl⟩
        exact ⟨ciphertext, rest, rfl, opens, rfl⟩
      · rintro ⟨_, _, same, opens, rfl⟩
        cases same
        exact ⟨opens, rfl⟩

/-- What a peer that joins stores was received by a session that expects the admin. -/
theorem requestReplica_eq_ok {ephemeral : ByteArr 32} {myIdentity : Identity}
    {expectedAdmin : PeerId} {stream reached : Stream} {plaintext : Bytes}
    (requested : requestReplica ephemeral myIdentity expectedAdmin stream =
      .ok plaintext reached) :
    ∃ (hello : Hello) (ciphertext : Bytes),
      byteSuite.Accepts (some expectedAdmin) hello.greeting ∧
      (⟨.initiator, myIdentity, ephemeral, some expectedAdmin, some hello.greeting,
        [(SyncMessage.chainState 0 (zeroArr 32)).encode]⟩ : byteSuite.Session).Receives
          byteCipher 0 ciphertext plaintext := by
  obtain ⟨⟨channel, peer⟩, middle, dialled, asking⟩ := bind_eq_ok_iff.mp requested
  obtain ⟨hello, accepts, _, _, rfl, _⟩ := initiator_eq_ok_iff.mp dialled
  obtain ⟨final, asked, _⟩ := within_eq_ok_iff.mp asking
  obtain ⟨_, waiting, sent, received⟩ := bind_eq_ok_iff.mp asked
  obtain ⟨ciphertext, rest, _, opens, _⟩ := recv_eq_ok_iff.mp received
  obtain ⟨outgoing, moved⟩ := finalState_send
    (SyncMessage.chainState 0 (zeroArr 32)).encode
    (opened middle (byteSuite.key ephemeral hello.ephemeralPub) Side.initiator.parity)
  have waits : waiting = _ := (congrArg finalState sent).symm.trans moved
  subst waits
  have numbered : nonceOf (recvNumber { opened middle
      (byteSuite.key ephemeral hello.ephemeralPub) Side.initiator.parity with
        sendCounter := 1
        stream := { middle with outgoing } }) = nonceOf (number Side.initiator.other 0) :=
    congrArg nonceOf (by decide : (0 : UInt64) * 2 + (1 - Side.initiator.parity).toUInt64 =
      number Side.initiator.other 0)
  exact ⟨hello, ciphertext, accepts, _, rfl, numbered ▸ opens⟩

end SecureChannel

end

/-! ## Over symbolic values -/

namespace Symbolic.Setting

variable (setting : Setting)

/-- Ideal encryption: a ciphertext opens only under the key and the nonce that it was made with,
to the message that it was made of. -/
abbrev cipher : Cipher setting.suite.Key where
  Ciphertext := setting.suite.Key × ByteArr nonceLen × Bytes
  Opens key nonce ciphertext plaintext := ciphertext = (key, nonce, plaintext)

/-- All sessions, and for each what has come of its attempts to decrypt. -/
structure Exchange where
  world : setting.World
  attempts : Nat → List (Option Bytes)

/-- Before anything has happened. -/
def silence : setting.Exchange := ⟨[], fun _ => []⟩

/-- A step of an honest identity, or an attempt of a session to decrypt a frame. -/
inductive Event where
  | act (act : setting.Act)
  | recv (index : Nat) (ciphertext : setting.cipher.Ciphertext)

variable {setting}

/-- A session has written a message. One that is too long for a frame takes a nonce, and nothing
of it is written. -/
def Wrote (session : setting.suite.Session) (message : Bytes) : Prop :=
  message ∈ session.sent ∧ message.length + tagLen ≤ maxFrameLen

/-- The ciphertexts that the attacker can bring: its own, under keys that it derives, and those
that sessions have written. -/
inductive Brings (world : setting.World) : setting.cipher.Ciphertext → Prop
  | own {key : setting.suite.Key} (nonce : ByteArr nonceLen) (plaintext : Bytes) :
      Derives (setting.Published world.length) key → Brings world (key, nonce, plaintext)
  | written {index count : Nat} {session : setting.suite.Session} {key : setting.suite.Key}
      {plaintext : Bytes} : world[index]? = some session → session.key = some key →
      session.sent[count]? = some plaintext → Wrote session plaintext →
        Brings world (key, nonceOf (number session.side count), plaintext)

/-- What an event leads to. A session that holds a key tries whatever ciphertext it is brought,
and its next nonce is then used up. -/
def Exchanged (_ : List setting.Event) (exchange : setting.Exchange) (event : setting.Event)
    (exchange' : setting.Exchange) : Prop :=
  match event with
  | .act act => Step [] exchange.world act exchange'.world ∧
      exchange'.attempts = exchange.attempts
  | .recv index ciphertext => ∃ session outcome, exchange.world[index]? = some session ∧
      session.accepted ≠ none ∧ Brings exchange.world ciphertext ∧
      (∀ plaintext, outcome = some plaintext ↔ session.Receives setting.cipher
        (exchange.attempts index).length ciphertext plaintext) ∧
      exchange' = { exchange with
        attempts := Function.update exchange.attempts index
          (exchange.attempts index ++ [outcome]) }

/-- The sessions of an exchange are those of a run of their own. -/
theorem exists_runs {trace : List setting.Event} {exchange : setting.Exchange}
    (run : Runs Exchanged setting.silence trace exchange) :
    ∃ acts, Runs Step [] acts exchange.world := by
  induction run with
  | nil => exact ⟨[], .nil⟩
  | @snoc _ _ _ event _ taken ih =>
      obtain ⟨acts, earlier⟩ := ih
      cases event with
      | act act => exact ⟨_, earlier.snoc (show Step acts _ act _ from taken.1)⟩
      | recv index ciphertext =>
          obtain ⟨_, _, _, _, _, _, rfl⟩ := taken
          exact ⟨acts, earlier⟩

/-- A run of sessions is one in which nothing is received. -/
theorem exchanged_of_runs {acts : List setting.Act} {world : setting.World}
    (run : Runs Step ([] : setting.World) acts world) :
    Runs Exchanged setting.silence (acts.map .act) ⟨world, fun _ => []⟩ := by
  induction run with
  | nil => exact .nil
  | snoc _ taken ih =>
      rw [List.map_append]
      exact ih.snoc ⟨taken, rfl⟩

/-- A ciphertext that opens is received. -/
theorem runs_recv {trace : List setting.Event} {exchange : setting.Exchange}
    (run : Runs Exchanged setting.silence trace exchange) (index : Nat)
    {session : setting.suite.Session} {ciphertext : setting.cipher.Ciphertext}
    {plaintext : Bytes} (place : exchange.world[index]? = some session)
    (brings : Brings exchange.world ciphertext)
    (received : session.Receives setting.cipher (exchange.attempts index).length ciphertext
      plaintext) :
    Runs Exchanged setting.silence (trace ++ [.recv index ciphertext]) { exchange with
      attempts := Function.update exchange.attempts index
        (exchange.attempts index ++ [some plaintext]) } := by
  obtain ⟨key, held, opens⟩ := received
  refine run.snoc ⟨session, some plaintext, place, fun waiting => ?_, brings, ?_, rfl⟩
  · rw [Suite.Session.key, waiting] at held
    cases held
  · intro other
    constructor
    · rintro ⟨⟩
      exact ⟨key, held, opens⟩
    · rintro ⟨_, _, opens'⟩
      exact congrArg (fun made => some made.2.2) (opens.symm.trans opens')

/-! ## What goes on -/

/-- Every session is still there, with its side, the key that it holds and what it has sent. -/
structure Continues (world world' : setting.World) : Prop where
  extended : Extends world world'
  continues : ∀ (index : Nat) (session : setting.suite.Session), world[index]? = some session →
    ∃ session' : setting.suite.Session, world'[index]? = some session' ∧
      session'.side = session.side ∧ (∀ key, session.key = some key → session'.key = some key) ∧
      ∀ message ∈ session.sent, message ∈ session'.sent

namespace Continues

variable {world world' : setting.World}

/-- One more session. -/
theorem append (session : setting.suite.Session) : Continues world (world ++ [session]) where
  extended := Extends.append session
  continues _ earlier place := ⟨earlier, (List.getElem?_append_left
    (List.getElem?_eq_some_iff.mp place).1).trans place, rfl, fun _ held => held,
    fun _ member => member⟩

/-- A session that has gone on. -/
theorem set {index : Nat} {session session' : setting.suite.Session}
    (place : world[index]? = some session) (owner : session'.owner = session.owner)
    (secret : session'.secret = session.secret) (side : session'.side = session.side)
    (key : ∀ key, session.key = some key → session'.key = some key)
    (sent : ∀ message ∈ session.sent, message ∈ session'.sent) :
    Continues world (world.set index session') where
  extended := Extends.set place owner secret
  continues other found place' := by
    by_cases same : index = other
    · subst same
      cases place.symm.trans place'
      exact ⟨session', List.getElem?_set_self (List.getElem?_eq_some_iff.mp place).1, side, key,
        sent⟩
    · exact ⟨found, (List.getElem?_set_ne same).trans place', rfl, fun _ held => held,
        fun _ member => member⟩

/-- Sessions go on over every step. -/
theorem of_step {trace : List setting.Act} {act : setting.Act}
    (taken : Step trace world act world') : Continues world world' := by
  cases act with
  | initiate owner expected =>
      obtain ⟨_, rfl⟩ := taken
      exact append _
  | respond owner greeting =>
      obtain ⟨_, _, _, rfl⟩ := taken
      exact append _
  | complete index greeting =>
      obtain ⟨session, place, _, waiting, _, _, rfl⟩ := taken
      refine set place rfl rfl rfl (fun key held => ?_) fun _ member => member
      rw [Suite.Session.key, waiting] at held
      cases held
  | send index message =>
      obtain ⟨session, place, _, rfl⟩ := taken
      exact set place rfl rfl rfl (fun _ held => held) fun _ member =>
        List.mem_append_left _ member

end Continues

/-! ## Where a message comes from -/

/-- Where a message that a session has received comes from: the attacker derives the key of the
session, or a session of the other side that shares the key has written it. -/
inductive Origin (world : setting.World) (session : setting.suite.Session) (plaintext : Bytes) :
    Prop
  | attacker {key : setting.suite.Key} : session.key = some key →
      Derives (setting.Published world.length) key → Origin world session plaintext
  | sender {index : Nat} {sender : setting.suite.Session} : world[index]? = some sender →
      sender.side = session.side.other → Share session sender → Wrote sender plaintext →
        Origin world session plaintext

/-- Everything that sessions have received has an origin. -/
def Traced (exchange : setting.Exchange) : Prop :=
  ∀ index plaintext, some plaintext ∈ exchange.attempts index →
    ∃ session, exchange.world[index]? = some session ∧
      Origin exchange.world session plaintext

/-- An origin stays one while sessions go on. -/
theorem Origin.mono {world world' : setting.World}
    {session session' : setting.suite.Session} {plaintext : Bytes}
    (origin : Origin world session plaintext) (continued : Continues world world')
    (side : session'.side = session.side)
    (keeps : ∀ key, session.key = some key → session'.key = some key) :
    Origin world' session' plaintext := by
  cases origin with
  | attacker held derived =>
      exact .attacker (keeps _ held) (continued.extended.derives derived)
  | sender place other shares wrote =>
      obtain ⟨sender', place', side', keeps', sent⟩ := continued.continues _ _ place
      obtain ⟨key, held, held'⟩ := shares
      refine .sender place' ?_ ⟨key, keeps key held, keeps' key held'⟩ ⟨sent _ wrote.1, wrote.2⟩
      rw [side', side, other]

/-- What was delivered stays traced. -/
theorem Traced.continues {exchange : setting.Exchange} {world' : setting.World}
    (traced : Traced exchange) (continued : Continues exchange.world world') :
    Traced (⟨world', exchange.attempts⟩ : setting.Exchange) := by
  intro index plaintext received
  obtain ⟨session, place, origin⟩ := traced index plaintext received
  obtain ⟨session', place', side, keeps, _⟩ := continued.continues index session place
  exact ⟨session', place', origin.mono continued side keeps⟩

/-- What a session receives from a ciphertext that the attacker can bring has an origin. -/
theorem Brings.origin {world : setting.World} {session : setting.suite.Session} {attempts : Nat}
    {ciphertext : setting.cipher.Ciphertext} {plaintext : Bytes}
    (brings : Brings world ciphertext)
    (received : session.Receives setting.cipher attempts ciphertext plaintext) :
    Origin world session plaintext := by
  obtain ⟨key, held, opens⟩ := received
  cases brings with
  | own nonce message derived =>
      cases opens
      exact .attacker held derived
  | @written index count sender key' message place held' sent wrote =>
      obtain ⟨rfl, rest⟩ := Prod.mk.inj opens
      obtain ⟨nonce, rfl⟩ := Prod.mk.inj rest
      exact .sender place (side_eq_of_nonce nonce) ⟨key', held, held'⟩ wrote

/-- **Origins.** In every run, everything that sessions have received has an origin. -/
theorem traced_of_runs {trace : List setting.Event} {exchange : setting.Exchange}
    (run : Runs Exchanged setting.silence trace exchange) : Traced exchange := by
  refine run.invariant Traced (fun _ _ received => absurd received List.not_mem_nil) ?_
  rintro _ exchange event exchange' traced taken
  cases event with
  | act act =>
      obtain ⟨stepped, attempts⟩ := taken
      obtain ⟨world', _⟩ := exchange'
      subst attempts
      exact traced.continues (.of_step stepped)
  | recv index ciphertext =>
      obtain ⟨session, outcome, place, _, brings, opens, rfl⟩ := taken
      intro other plaintext received
      dsimp only at received
      by_cases same : other = index
      · subst same
        rw [Function.update_self] at received
        rcases List.mem_append.mp received with earlier | last
        · exact traced other plaintext earlier
        · have outcomeIs := (List.mem_singleton.mp last).symm
          exact ⟨session, place, brings.origin ((opens plaintext).mp outcomeIs)⟩
      · rw [Function.update_of_ne same] at received
        exact traced other plaintext received

end Symbolic.Setting

end ReVault
