import ReVault.Core.Transparent
import ReVault.Net.Protocol

/-!
# The secure channel

Both directions of a connection are encrypted under one session key. Nonces are counters,
and the parity of an end keeps its nonces apart from those of the other end.
-/

namespace ReVault

open Foundation Primitives

/-- An encrypted channel over a byte stream. -/
structure SecureChannel where
  stream : Stream
  key : MasterKey
  sendCounter : UInt64
  recvCounter : UInt64
  /-- 0 for the initiator, 1 for the responder -/
  sendParity : UInt8
  deriving DecidableEq

/-- Programs on one end of a channel. -/
abbrev ChannelM := EStateM Fault SecureChannel

namespace SecureChannel

/-- A nonce from a 64-bit number. -/
def nonceOf (value : UInt64) : ByteArr nonceLen :=
  ⟨toLE 8 value.toNat ++ List.replicate 4 0, by
    rw [List.length_append, length_toLE, List.length_replicate]⟩

/-- The number of the nonce that the next message is encrypted under. -/
def sendNumber (channel : SecureChannel) : UInt64 :=
  channel.sendCounter * 2 + channel.sendParity.toUInt64

/-- The number of the nonce that the next frame is decrypted under. -/
def recvNumber (channel : SecureChannel) : UInt64 :=
  channel.recvCounter * 2 + (1 - channel.sendParity).toUInt64

/-- A nonce for sending; the counter goes on whatever becomes of the message. -/
def sendNonce : ChannelM (ByteArr nonceLen) := fun channel =>
  .ok (nonceOf channel.sendNumber) { channel with sendCounter := channel.sendCounter + 1 }

/-- A nonce for receiving; the counter goes on whatever becomes of the message. -/
def recvNonce : ChannelM (ByteArr nonceLen) := fun channel =>
  .ok (nonceOf channel.recvNumber) { channel with recvCounter := channel.recvCounter + 1 }

/-- A program over the byte stream of a channel. -/
def onStream {α : Type} (program : StreamM α) : ChannelM α :=
  within SecureChannel.stream (fun stream channel => { channel with stream := stream }) id program

variable [Primitives]

/-- A message is sealed under the session key. -/
def encrypt (nonce : ByteArr nonceLen) (plaintext : Bytes) (channel : SecureChannel) :
    Except Fault Bytes :=
  match aesGcmEncrypt channel.key nonce [] plaintext with
  | some ciphertext => .ok ciphertext
  | none => .error (.error .cryptoFailure)

/-- A frame is opened with the session key. -/
def decrypt (nonce : ByteArr nonceLen) (ciphertext : Bytes) (channel : SecureChannel) :
    Except Fault Bytes :=
  match aesGcmDecrypt channel.key nonce [] ciphertext with
  | some plaintext => .ok plaintext
  | none => .error (.error .cryptoFailure)

/-- Encrypts a message and writes it as a frame. The counter moves on whatever happens. -/
def send (plaintext : Bytes) : ChannelM Unit := do
  let nonce ← sendNonce
  let ciphertext ← observe (encrypt nonce plaintext)
  onStream (Stream.writeFrame ciphertext)

/-- Reads a frame and decrypts it. The counter moves on as soon as a frame was read. -/
def recv : ChannelM Bytes := do
  let ciphertext ← onStream Stream.readFrame
  let nonce ← recvNonce
  observe (decrypt nonce ciphertext)

/-! ## What the ends of a channel do -/

omit [Primitives] in
/-- What was written on the stream of a channel is never taken back. -/
def Grows (channel channel' : SecureChannel) : Prop := channel.stream.Grows channel'.stream

omit [Primitives] in
/-- Nothing is written. -/
theorem Grows.refl (channel : SecureChannel) : Grows channel channel :=
  Stream.Grows.refl channel.stream

omit [Primitives] in
/-- Writing after writing. -/
theorem Grows.trans (first second third : SecureChannel) (head : Grows first second)
    (tail : Grows second third) : Grows first third :=
  Stream.Grows.trans _ _ _ head tail

omit [Primitives] in
/-- A program on the stream writes what it writes to the stream. -/
theorem onStream_grows {α : Type} {program : StreamM α} (moves : Moves Stream.Grows program) :
    Moves Grows (onStream program) := Moves.within moves fun _ _ grows => grows

/-- Sending only writes. -/
theorem send_grows (plaintext : Bytes) : Moves Grows (send plaintext) := by
  refine Moves.bind Grows.trans (fun channel => Grows.refl channel) fun nonce => ?_
  refine Moves.bind Grows.trans (Moves.observe Grows.refl _) fun ciphertext => ?_
  exact onStream_grows (Stream.writeFrame_grows ciphertext)

omit [Primitives] in
/-- Nothing is written on the stream of a channel. -/
def Quiet (channel channel' : SecureChannel) : Prop := channel.stream.Quiet channel'.stream

omit [Primitives] in
/-- Nothing is written. -/
theorem Quiet.refl (channel : SecureChannel) : Quiet channel channel :=
  Stream.Quiet.refl channel.stream

omit [Primitives] in
/-- Quiet steps one after the other. -/
theorem Quiet.trans (first second third : SecureChannel) (head : Quiet first second)
    (tail : Quiet second third) : Quiet first third :=
  Stream.Quiet.trans _ _ _ head tail

/-- Receiving writes nothing. -/
theorem recv_quiet : Moves Quiet recv := by
  refine Moves.bind Quiet.trans
    (Moves.within Stream.readFrame_quiet fun _ _ quiet => quiet) fun ciphertext => ?_
  refine Moves.bind Quiet.trans (fun channel => Quiet.refl channel) fun nonce => ?_
  exact Moves.observe Quiet.refl _

/-- Receiving writes nothing. -/
theorem recv_grows : Moves Grows recv :=
  recv_quiet.mono fun _ _ quiet => Stream.Quiet.grows _ _ quiet

/-- What is sent when the message can be sealed. -/
theorem send_of_encrypted {channel : SecureChannel} {plaintext ciphertext : Bytes}
    (encrypted : aesGcmEncrypt channel.key (nonceOf channel.sendNumber) [] plaintext =
      some ciphertext) :
    send plaintext channel = onStream (Stream.writeFrame ciphertext)
      { channel with sendCounter := channel.sendCounter + 1 } := by
  have numbered : sendNonce channel = .ok (nonceOf channel.sendNumber)
      { channel with sendCounter := channel.sendCounter + 1 } := rfl
  have sealed : observe (encrypt (nonceOf channel.sendNumber) plaintext)
      { channel with sendCounter := channel.sendCounter + 1 } = .ok ciphertext
        { channel with sendCounter := channel.sendCounter + 1 } :=
    observe_of_ok (by simp only [encrypt, encrypted])
  exact (bind_of_ok numbered).trans (bind_of_ok sealed)

/-- A message that is not encrypted is not sent. -/
theorem send_of_unencrypted {channel : SecureChannel} {plaintext : Bytes}
    (refused : aesGcmEncrypt channel.key (nonceOf channel.sendNumber) [] plaintext = none) :
    send plaintext channel = .error (.error .cryptoFailure)
      { channel with sendCounter := channel.sendCounter + 1 } := by
  have failed : observe (encrypt (nonceOf channel.sendNumber) plaintext)
      { channel with sendCounter := channel.sendCounter + 1 } = .error (.error .cryptoFailure)
        { channel with sendCounter := channel.sendCounter + 1 } :=
    observe_of_error (by simp only [encrypt, refused])
  exact (bind_of_ok rfl).trans (bind_of_error failed)

/-- A ciphertext that fits is written as a frame. -/
theorem send_of_fits {channel : SecureChannel} {plaintext ciphertext : Bytes}
    (encrypted : aesGcmEncrypt channel.key (nonceOf channel.sendNumber) [] plaintext =
      some ciphertext) (fits : ciphertext.length ≤ maxFrameLen) :
    send plaintext channel = .ok () { channel with
      sendCounter := channel.sendCounter + 1
      stream := { channel.stream with
        outgoing := channel.stream.outgoing ++ Stream.frame ciphertext } } :=
  (send_of_encrypted encrypted).trans
    (within_of_ok (Stream.writeFrame_of_le fits channel.stream))

/-- Encryption makes a message longer by the tag, whatever the message. -/
def Expanding : Prop := ∀ key nonce aad message ciphertext,
  aesGcmEncrypt key nonce aad message = some ciphertext →
    ciphertext.length = message.length + tagLen

/-- A message that fits in a frame with its tag is sent, and the other end decrypts it. -/
theorem exists_sent [Lawful] (channel : SecureChannel) {plaintext : Bytes}
    (fits : plaintext.length + tagLen ≤ maxFrameLen) : ∃ ciphertext,
      ciphertext.length ≤ maxFrameLen ∧
      aesGcmEncrypt channel.key (nonceOf channel.sendNumber) [] plaintext = some ciphertext ∧
      aesGcmDecrypt channel.key (nonceOf channel.sendNumber) [] ciphertext = some plaintext ∧
      send plaintext channel = .ok () { channel with
        sendCounter := channel.sendCounter + 1
        stream := { channel.stream with
          outgoing := channel.stream.outgoing ++ Stream.frame ciphertext } } := by
  have small : plaintext.length ≤ aesGcmMax :=
    (Nat.le_of_add_right_le fits).trans (by decide)
  obtain ⟨ciphertext, encrypted, length, decrypted⟩ :=
    Lawful.encrypts channel.key (nonceOf channel.sendNumber) [] plaintext small
  rw [← length] at fits
  exact ⟨ciphertext, fits, encrypted, decrypted, send_of_fits encrypted fits⟩

/-- A message that does not fit in a frame with its tag is not sent. -/
theorem exists_not_sent (expanding : Expanding) (channel : SecureChannel) {plaintext : Bytes}
    (long : maxFrameLen < plaintext.length + tagLen) : ∃ error, send plaintext channel =
      .error error { channel with sendCounter := channel.sendCounter + 1 } := by
  cases outcome : aesGcmEncrypt channel.key (nonceOf channel.sendNumber) [] plaintext with
  | none => exact ⟨_, send_of_unencrypted outcome⟩
  | some ciphertext =>
      rw [← expanding _ _ _ _ _ outcome] at long
      exact ⟨_, (send_of_encrypted outcome).trans
        (within_of_error (Stream.writeFrame_of_lt long channel.stream))⟩

/-- A receive that reads no frame leaves the counters alone. -/
theorem recv_of_unread {channel : SecureChannel} {error : Fault} {rest : Stream}
    (unread : Stream.readFrame channel.stream = .error error rest) :
    recv channel = .error error { channel with stream := rest } :=
  bind_of_error (within_of_error unread)

/-- A receive that reads a frame moves the receive counter on and decrypts the frame. -/
theorem recv_of_read {channel : SecureChannel} {ciphertext : Bytes} {rest : Stream}
    (read : Stream.readFrame channel.stream = .ok ciphertext rest) :
    recv channel = observe (decrypt (nonceOf channel.recvNumber) ciphertext)
      { channel with stream := rest, recvCounter := channel.recvCounter + 1 } := by
  have framed : onStream Stream.readFrame channel = .ok ciphertext
      { channel with stream := rest } := within_of_ok read
  exact (bind_of_ok framed).trans (bind_of_ok rfl)

/-- A receive that reads a frame moves on, whatever comes of the decryption. -/
theorem finalState_recv {channel : SecureChannel} {ciphertext : Bytes} {rest : Stream}
    (read : Stream.readFrame channel.stream = .ok ciphertext rest) :
    finalState (recv channel) =
      { channel with stream := rest, recvCounter := channel.recvCounter + 1 } := by
  rw [recv_of_read read]
  unfold observe
  split <;> rfl

/-- A frame that decrypts is received. -/
theorem recv_of_frame {channel : SecureChannel} {plaintext ciphertext rest : Bytes}
    (incoming : channel.stream.incoming = Stream.frame ciphertext ++ rest)
    (fits : ciphertext.length ≤ maxFrameLen)
    (decrypted : aesGcmDecrypt channel.key (nonceOf channel.recvNumber) [] ciphertext =
      some plaintext) :
    recv channel = .ok plaintext { channel with
      recvCounter := channel.recvCounter + 1
      stream := { channel.stream with incoming := rest } } := by
  have read := Stream.readFrame_of_incoming incoming fits
  have opened : observe (decrypt (nonceOf channel.recvNumber) ciphertext)
      { channel with
        recvCounter := channel.recvCounter + 1
        stream := { channel.stream with incoming := rest } } = .ok plaintext _ :=
    observe_of_ok (by simp only [decrypt, decrypted])
  exact (recv_of_read read).trans opened

/-- Whatever comes of it, a send moves the send counter on and otherwise only writes. -/
theorem finalState_send (plaintext : Bytes) (channel : SecureChannel) : ∃ outgoing,
    finalState (send plaintext channel) = { channel with
      sendCounter := channel.sendCounter + 1
      stream := { channel.stream with outgoing } } := by
  cases outcome : aesGcmEncrypt channel.key (nonceOf channel.sendNumber) [] plaintext with
  | none =>
      rw [send_of_unencrypted outcome]
      exact ⟨channel.stream.outgoing, rfl⟩
  | some ciphertext =>
      rw [send_of_encrypted outcome]
      unfold onStream
      rw [finalState_within]
      by_cases short : ciphertext.length ≤ maxFrameLen
      · rw [Stream.writeFrame_of_le short]
        exact ⟨_, rfl⟩
      · rw [Stream.writeFrame_of_lt (Nat.lt_of_not_le short)]
        exact ⟨channel.stream.outgoing, rfl⟩

end SecureChannel

namespace Transparent

/-- In the transparent instance a sealed message is longer by its tag. -/
theorem expanding : SecureChannel.Expanding := by
  intro key nonce aad message ciphertext encrypted
  change encrypt key message = some ciphertext at encrypted
  unfold encrypt at encrypted
  split at encrypted
  · cases encrypted
    rw [List.length_append, length_tag]
  · cases encrypted

end Transparent

end ReVault
