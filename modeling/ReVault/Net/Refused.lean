import ReVault.Net.Wire

/-!
# Sends that are refused

A message that is too long for a frame is refused after its nonce was taken, while the other end
takes a nonce only for a frame that it reads. From then on the numbers of the two ends are
apart, and what is sent later does not decrypt.
-/

namespace ReVault

open Foundation Primitives

namespace SecureChannel

/-! ## Successive calls -/

/-- The messages that fit in a frame with their tag. -/
def FitsFrame (plaintext : Bytes) : Prop := plaintext.length + tagLen ≤ maxFrameLen

/-- Whether a message fits can be computed. -/
instance (plaintext : Bytes) : Decidable (FitsFrame plaintext) :=
  inferInstanceAs (Decidable (_ ≤ _))

section

variable [Primitives]

/-- Successive calls of `send`: the messages whose call returned, and the channel reached. -/
def sendAll : List Bytes → SecureChannel → List Bytes × SecureChannel
  | [], channel => ([], channel)
  | plaintext :: rest, channel =>
      match send plaintext channel with
      | .ok _ after => (plaintext :: (sendAll rest after).1, (sendAll rest after).2)
      | .error _ after => sendAll rest after

/-- Successive calls of `recv`: what each returned, and the channel reached. -/
def recvAll : (count : Nat) → SecureChannel → List (Option Bytes) × SecureChannel
  | 0, channel => ([], channel)
  | count + 1, channel =>
      let result := recv channel
      let later := recvAll count (finalState result)
      (returned result :: later.1, later.2)

omit [Primitives] in
/-- Two ends whose next message is sent and received under one nonce, with nothing in flight. -/
structure InStep (sender receiver : SecureChannel) : Prop where
  keyed : receiver.key = sender.key
  numbered : sender.sendNumber = receiver.recvNumber
  arrived : receiver.stream.incoming = []

/-- All that several sends write arrives, and successive receives return exactly the messages
whose sends returned. -/
def Delivers (sender receiver : SecureChannel) (messages : List Bytes) : Prop :=
  let accepted := (sendAll messages sender).1
  let written :=
    (sendAll messages sender).2.stream.outgoing.drop sender.stream.outgoing.length
  let reached := recvAll accepted.length
    { receiver with stream := { receiver.stream with
        incoming := receiver.stream.incoming ++ written } }
  reached.1 = accepted.map some ∧ reached.2.stream.incoming = []

/-- What a key makes of these messages under one nonce, it opens under no other. -/
def BindsNonce (key : MasterKey) (messages : List Bytes) : Prop :=
  ∀ message ∈ messages, ∀ number number' ciphertext, number ≠ number' →
    aesGcmEncrypt key (nonceOf number) [] message = some ciphertext →
    aesGcmDecrypt key (nonceOf number') [] ciphertext = none

end

/-- What is received when so many messages were refused before. -/
def outcomes : (refused : Nat) → List Bytes → List (Option Bytes)
  | _, [] => []
  | refused, message :: rest =>
      if FitsFrame message then
        (if 2 ^ 63 ∣ refused then some message else none) :: outcomes refused rest
      else outcomes (refused + 1) rest

/-- Before every message that fits, the number of refused ones is a multiple of 2^63, the number
of nonces of an end: none was refused, as long as there are fewer. -/
def Undisturbed (messages : List Bytes) : Prop :=
  ∀ before message after, messages = before ++ message :: after → FitsFrame message →
    2 ^ 63 ∣ (before.filter fun earlier => ¬ FitsFrame earlier).length

/-! ## Numbers -/

/-- The next number for sending. -/
theorem sendNumber_succ (channel : SecureChannel) (stream : Stream) :
    sendNumber { channel with stream, sendCounter := channel.sendCounter + 1 } =
      channel.sendNumber + 2 := by
  unfold sendNumber
  grind

/-- The next number for receiving. -/
theorem recvNumber_succ (channel : SecureChannel) (stream : Stream) :
    recvNumber { channel with stream, recvCounter := channel.recvCounter + 1 } =
      channel.recvNumber + 2 := by
  unfold recvNumber
  grind

/-- Numbers that are apart by a number of messages are the same after 2^63. -/
theorem add_double_eq_iff (number : UInt64) (refused : Nat) :
    number + UInt64.ofNat (2 * refused) = number ↔ 2 ^ 63 ∣ refused := by
  have small := number.toNat_lt
  rw [← UInt64.toNat_inj, UInt64.toNat_add, UInt64.toNat_ofNat']
  omega

/-! ## What is received -/

section

variable [Primitives]

/-- The nonce that a frame is decrypted under is its own when a multiple of 2^63 messages was
refused before it. -/
theorem decrypt_of_refused {sender receiver : SecureChannel} {message ciphertext : Bytes}
    {refused : Nat} (keyed : receiver.key = sender.key)
    (numbered : sender.sendNumber = receiver.recvNumber + UInt64.ofNat (2 * refused))
    (binds : BindsNonce sender.key [message])
    (encrypted : aesGcmEncrypt sender.key (nonceOf sender.sendNumber) [] message = some ciphertext)
    (decrypted : aesGcmDecrypt sender.key (nonceOf sender.sendNumber) [] ciphertext =
      some message) :
    aesGcmDecrypt receiver.key (nonceOf receiver.recvNumber) [] ciphertext =
      if 2 ^ 63 ∣ refused then some message else none := by
  rw [keyed]
  by_cases aligned : 2 ^ 63 ∣ refused
  · rw [if_pos aligned]
    rwa [numbered, (add_double_eq_iff _ _).mpr aligned] at decrypted
  · rw [if_neg aligned]
    refine binds message List.mem_cons_self _ _ ciphertext (fun same => aligned ?_) encrypted
    rw [numbered] at same
    exact (add_double_eq_iff _ _).mp same

/-- Successive sends write the frames of the messages that fit, and the other end receives of
them those before which a multiple of 2^63 was refused. -/
theorem recvAll_of_sendAll [Lawful] (expanding : Expanding) (messages : List Bytes)
    (sender : SecureChannel) (binds : BindsNonce sender.key messages) :
    ∃ frames, (sendAll messages sender).1 = messages.filter (fun message => FitsFrame message) ∧
      (sendAll messages sender).2.stream.outgoing = sender.stream.outgoing ++ frames ∧
      ∀ receiver refused, receiver.key = sender.key →
        sender.sendNumber = receiver.recvNumber + UInt64.ofNat (2 * refused) →
        receiver.stream.incoming = frames →
        (recvAll (messages.filter fun message => FitsFrame message).length receiver).1 =
            outcomes refused messages ∧
          (recvAll (messages.filter fun message => FitsFrame message).length
            receiver).2.stream.incoming = [] := by
  induction messages generalizing sender with
  | nil => exact ⟨[], rfl, (List.append_nil _).symm, fun _ _ _ _ arrived => ⟨rfl, arrived⟩⟩
  | cons message rest ih =>
      have later : BindsNonce sender.key rest := fun other member =>
        binds other (List.mem_cons_of_mem message member)
      by_cases fits : FitsFrame message
      · have kept : (message :: rest).filter (fun other => FitsFrame other) =
            message :: rest.filter fun other => FitsFrame other :=
          List.filter_cons_of_pos (decide_eq_true fits)
        obtain ⟨ciphertext, short, encrypted, decrypted, sent⟩ := sender.exists_sent fits
        obtain ⟨frames, accepted, outgoing, received⟩ := ih { sender with
          sendCounter := sender.sendCounter + 1
          stream := { sender.stream with
            outgoing := sender.stream.outgoing ++ Stream.frame ciphertext } } later
        rw [kept]
        refine ⟨Stream.frame ciphertext ++ frames, ?_, ?_, ?_⟩
        · rw [sendAll, sent]
          exact congrArg (message :: ·) accepted
        · rw [sendAll, sent]
          exact outgoing.trans (List.append_assoc ..)
        · intro receiver refused keyed numbered arrived
          have read := Stream.readFrame_of_incoming arrived short
          have opened := decrypt_of_refused keyed numbered
            (fun other member => binds other (List.mem_of_mem_head? (by
              rw [List.mem_singleton.mp member]
              rfl))) encrypted decrypted
          have tail := received { receiver with
            stream := { receiver.stream with incoming := frames }
            recvCounter := receiver.recvCounter + 1 } refused keyed (by
              rw [sendNumber_succ, recvNumber_succ, numbered]
              grind) rfl
          rw [List.length_cons, recvAll, outcomes, if_pos fits, Wire.returned_recv read, opened,
            finalState_recv read]
          exact ⟨congrArg (_ :: ·) tail.1, tail.2⟩
      · have dropped : (message :: rest).filter (fun other => FitsFrame other) =
            rest.filter fun other => FitsFrame other :=
          List.filter_cons_of_neg (fun claimed => fits (of_decide_eq_true claimed))
        obtain ⟨error, refusal⟩ := exists_not_sent expanding sender (Nat.lt_of_not_le fits)
        obtain ⟨frames, accepted, outgoing, received⟩ :=
          ih { sender with sendCounter := sender.sendCounter + 1 } later
        rw [dropped]
        refine ⟨frames, ?_, ?_, ?_⟩
        · rw [sendAll, refusal]
          exact accepted
        · rw [sendAll, refusal]
          exact outgoing
        · intro receiver refused keyed numbered arrived
          rw [outcomes, if_neg fits]
          refine received receiver (refused + 1) keyed ?_ arrived
          have moved := sendNumber_succ sender sender.stream
          rw [moved, numbered, Nat.mul_add, UInt64.ofNat_add]
          grind

/-! ## When a channel stays usable -/

omit [Primitives] in
/-- A fact about every item of a list and the items before it. -/
private theorem forall_split_cons {α : Type} {holds : List α → α → Prop} {first : α}
    {rest : List α} :
    (∀ before item after, first :: rest = before ++ item :: after → holds before item) ↔
      holds [] first ∧
        ∀ before item after, rest = before ++ item :: after → holds (first :: before) item := by
  constructor
  · intro all
    exact ⟨all [] first rest rfl, fun before item after split =>
      all (first :: before) item after (by rw [split]; rfl)⟩
  · rintro ⟨head, tail⟩ before item after split
    cases before with
    | nil =>
        cases split
        exact head
    | cons other before =>
        cases split
        exact tail before item after rfl

omit [Primitives] in
/-- What is received is what was sent when a multiple of 2^63 was refused before each message. -/
theorem outcomes_eq_iff (refused : Nat) (messages : List Bytes) :
    outcomes refused messages =
        (messages.filter fun message => FitsFrame message).map some ↔
      ∀ before message after, messages = before ++ message :: after → FitsFrame message →
        2 ^ 63 ∣ refused + (before.filter fun earlier => ¬ FitsFrame earlier).length := by
  induction messages generalizing refused with
  | nil =>
      refine iff_of_true rfl fun before message after split _ => ?_
      cases before <;> cases split
  | cons message rest ih =>
      rw [forall_split_cons, outcomes, List.filter_nil, List.length_nil, Nat.add_zero]
      by_cases fits : FitsFrame message
      · rw [if_pos fits, List.filter_cons_of_pos (by exact decide_eq_true fits), List.map_cons,
          List.cons_eq_cons, ih]
        refine and_congr ?_ ?_
        · split
          · rename_i aligned
            exact iff_of_true rfl fun _ => aligned
          · rename_i apart
            exact iff_of_false (fun same => by cases same) fun aligned => apart (aligned fits)
        · refine forall_congr' fun before => ?_
          rw [List.filter_cons_of_neg (by simpa using fits)]
      · rw [if_neg fits, List.filter_cons_of_neg (by simpa using fits), ih]
        constructor
        · intro aligned
          refine ⟨fun claimed => absurd claimed fits, fun before other after split fitting => ?_⟩
          rw [List.filter_cons_of_pos (by simpa using fits), List.length_cons]
          have found := aligned before other after split fitting
          rwa [Nat.add_assoc, Nat.add_comm 1] at found
        · rintro ⟨_, aligned⟩ before other after split fitting
          have found := aligned before other after split fitting
          rw [List.filter_cons_of_pos (by simpa using fits), List.length_cons] at found
          rwa [Nat.add_assoc, Nat.add_comm 1]

/-- Messages are delivered exactly when every one that was accepted comes out. -/
theorem delivers_iff_outcomes [Lawful] (expanding : Expanding) {sender receiver : SecureChannel}
    (inStep : InStep sender receiver) {messages : List Bytes}
    (binds : BindsNonce sender.key messages) :
    Delivers sender receiver messages ↔
      outcomes 0 messages = (messages.filter fun message => FitsFrame message).map some := by
  obtain ⟨frames, accepted, outgoing, received⟩ :=
    recvAll_of_sendAll expanding messages sender binds
  have reached := received { receiver with stream := { receiver.stream with incoming := frames } }
    0 inStep.keyed (by
      rw [inStep.numbered]
      exact (UInt64.add_zero _).symm) rfl
  unfold Delivers
  rw [outgoing, accepted, List.drop_left, inStep.arrived]
  dsimp only
  rw [List.nil_append, reached.1, and_iff_left reached.2]

/-- **Refused sends.** For every sequence of sends, the other end receives exactly the messages
whose sends returned, exactly when no message is sent after a refused one. -/
theorem delivers_iff [Lawful] (expanding : Expanding) {sender receiver : SecureChannel}
    (inStep : InStep sender receiver) {messages : List Bytes}
    (binds : BindsNonce sender.key messages) :
    Delivers sender receiver messages ↔ Undisturbed messages := by
  rw [delivers_iff_outcomes expanding inStep binds, outcomes_eq_iff]
  unfold Undisturbed
  simp only [Nat.zero_add]

omit [Primitives] in
/-- Two ends right after the handshake are in step. -/
theorem inStep_opened (key : MasterKey) (stream stream' : Stream) (side : Side)
    (arrived : stream'.incoming = []) :
    InStep (opened stream key side.parity) (opened stream' key side.other.parity) := by
  refine ⟨rfl, ?_, arrived⟩
  unfold sendNumber recvNumber opened
  dsimp only
  cases side <;> decide

end

end SecureChannel

/-! ## Primitives that bind the nonce -/

namespace Nonced

open SecureChannel

/-- A nonce and the start of a key, as a key. -/
def mixed (key : MasterKey) (nonce : ByteArr nonceLen) : MasterKey :=
  ⟨nonce.toList ++ key.toList.take 20, by
    rw [List.length_append, List.length_take, List.Vector.toList_length, List.Vector.toList_length]
    rfl⟩

/-- The transparent primitives with tags that name the nonce as well as the key. -/
scoped instance primitives : Primitives :=
  { Transparent.primitives with
    aesGcmEncrypt := fun key nonce _ message => Transparent.encrypt (mixed key nonce) message
    aesGcmDecrypt := fun key nonce _ ciphertext =>
      Transparent.decrypt (mixed key nonce) ciphertext }

scoped instance lawful : Lawful where
  encrypts := fun key nonce aad message small =>
    Transparent.lawful.encrypts (mixed key nonce) nonce aad message small
  agrees := Transparent.lawful.agrees
  validKey := Transparent.lawful.validKey
  verifies := Transparent.lawful.verifies

/-- A sealed message is longer by its tag. -/
theorem expanding : Expanding := fun key nonce aad message ciphertext encrypted =>
  Transparent.expanding (mixed key nonce) nonce aad message ciphertext encrypted

/-- The tag begins with the nonce, so no other nonce opens the message. -/
theorem bindsNonce (key : MasterKey) (messages : List Bytes) : BindsNonce key messages := by
  intro message _ number number' ciphertext different encrypted
  refine (Transparent.decrypt_encrypt encrypted).trans (if_neg fun same => different ?_)
  have nonces : ∀ nonce : ByteArr nonceLen,
      (Transparent.tag (mixed key nonce)).take nonceLen = nonce.toList := by
    intro nonce
    have length : nonce.toList.length = nonceLen := List.Vector.toList_length nonce
    change ((nonce.toList ++ key.toList.take 20).take tagLen).take nonceLen = _
    rw [List.take_take, List.take_append_of_le_length (by rw [length]; decide)]
    exact List.take_of_length_le (by rw [length]; decide)
  have equal := congrArg (List.take nonceLen) same
  rw [nonces, nonces] at equal
  exact Wire.nonceOf_injective (List.Vector.toList_injective equal)

/-- One end of a new connection. -/
def sender : SecureChannel := opened ⟨[], []⟩ (zeroArr keyLen) Side.initiator.parity

/-- The other end. -/
def receiver : SecureChannel := opened ⟨[], []⟩ (zeroArr keyLen) Side.responder.parity

/-- Two short messages are delivered. -/
theorem delivers_iff_short :
    Delivers sender receiver [[7], [8]] ↔ Undisturbed [[7], [8]] :=
  delivers_iff expanding (inStep_opened (zeroArr keyLen) ⟨[], []⟩ ⟨[], []⟩ .initiator rfl)
    (bindsNonce (zeroArr keyLen) [[7], [8]])

/-- After a message of 64 MiB, which is refused, the next one does not arrive. -/
theorem not_delivers_after_refusal : InStep sender receiver ∧
    ¬ Delivers sender receiver [List.replicate maxFrameLen 0, [7]] := by
  have inStep : InStep sender receiver :=
    inStep_opened (zeroArr keyLen) ⟨[], []⟩ ⟨[], []⟩ .initiator rfl
  refine ⟨inStep, fun delivers => ?_⟩
  have long : ¬ FitsFrame (List.replicate maxFrameLen 0) := by
    unfold FitsFrame
    rw [List.length_replicate]
    decide
  have received := (delivers_iff_outcomes expanding inStep (bindsNonce _ _)).mp delivers
  rw [List.filter_cons_of_neg (by simpa using long), outcomes, if_neg long] at received
  exact absurd received (by decide)

end Nonced

end ReVault
