import Mathlib.Logic.Function.Basic
import ReVault.Foundation.Runs
import ReVault.Net.Handshake

/-!
# Two ends and an attacker between them

Two ends hold one session key and call `send` and `recv` in any order, and an attacker decides
before every call which bytes an end reads next. Ghosts record every message that was sent
and what came of every decryption. Each end counts its calls, and parity and counter keep all
nonces apart, so what is received is what was sent with the same number.
-/

namespace ReVault

open Foundation Primitives

/-- The two ends of a connection. -/
inductive Side where
  | initiator
  | responder
  deriving DecidableEq

namespace Side

/-- The other end. -/
def other : Side → Side
  | initiator => responder
  | responder => initiator

/-- The parity of the nonces that an end sends under. -/
def parity : Side → UInt8
  | initiator => 0
  | responder => 1

/-- The other end of the other end. -/
theorem other_other (side : Side) : side.other.other = side := by cases side <;> rfl

/-- An end is not the other. -/
theorem other_ne (side : Side) : side.other ≠ side := by
  cases side <;> exact fun same => by cases same

/-- There are two ends. -/
theorem eq_or_eq_other (side side' : Side) : side' = side ∨ side' = side.other := by
  cases side <;> cases side' <;> simp only [other, or_true, true_or]

end Side

/-- One call of `send`: the nonce it took, the message, and what encryption made of it. -/
structure Sent where
  nonce : ByteArr nonceLen
  plaintext : Bytes
  ciphertext : Option Bytes

/-- The two ends and what has happened so far. In flight to an end is what the other has
written and an honest network has yet to bring. -/
structure Wire where
  ends : Side → SecureChannel
  inFlight : Side → Bytes
  sent : Side → List Sent
  attempts : Side → List (Option Bytes)

/-- A step at one end: a call of that end, or what the network does to the bytes that the end
reads next. -/
inductive WireAct where
  | send (side : Side) (plaintext : Bytes)
  | recv (side : Side)
  | tamper (side : Side) (incoming : Bytes)
  | deliver (side : Side) (count : Nat)

/-- The value that a program returned, if it did not fail. -/
def returned {ε σ α : Type} : EStateM.Result ε σ α → Option α
  | .ok value _ => some value
  | .error _ _ => none

/-- A success returns its value. -/
@[simp] theorem returned_ok {ε σ α : Type} (value : α) (state : σ) :
    returned (.ok value state : EStateM.Result ε σ α) = some value := rfl

/-- A failure returns nothing. -/
@[simp] theorem returned_error {ε σ α : Type} (error : ε) (state : σ) :
    returned (.error error state : EStateM.Result ε σ α) = none := rfl

namespace Wire

/-- Two ends right after the handshake. -/
def opened (key : MasterKey) (outgoing : Side → Bytes) : Wire where
  ends := fun side => SecureChannel.opened ⟨[], outgoing side⟩ key side.parity
  inFlight := fun _ => []
  sent := fun _ => []
  attempts := fun _ => []

/-- The bytes that an end reads next are set. -/
def feed (w : Wire) (side : Side) (incoming : Bytes) : Wire :=
  let channel := w.ends side
  let final := { channel with stream := { channel.stream with incoming } }
  { w with ends := Function.update w.ends side final }

/-- The number of the nonce that an end sends its messages under, one after the other. -/
def number (side : Side) (count : Nat) : UInt64 :=
  UInt64.ofNat count * 2 + side.parity.toUInt64

section

variable [Primitives]

/-- One end sends; what it puts on the wire is logged with its nonce. -/
def send (w : Wire) (side : Side) (plaintext : Bytes) : Wire :=
  let channel := w.ends side
  let nonce := SecureChannel.nonceOf channel.sendNumber
  let final := finalState (channel.send plaintext)
  { w with
    ends := Function.update w.ends side final
    inFlight := Function.update w.inFlight side.other
      (w.inFlight side.other ++ final.stream.outgoing.drop channel.stream.outgoing.length)
    sent := Function.update w.sent side
      (w.sent side ++ [⟨nonce, plaintext, aesGcmEncrypt channel.key nonce [] plaintext⟩]) }

/-- One end receives what is next for it; every attempt is logged with its nonce. -/
def recv (w : Wire) (side : Side) : Wire :=
  let channel := w.ends side
  let result := SecureChannel.recv channel
  { w with
    ends := Function.update w.ends side (finalState result)
    attempts :=
      if (returned (Stream.readFrame channel.stream)).isSome then
        Function.update w.attempts side (w.attempts side ++ [returned result])
      else w.attempts }

/-- Nothing is decrypted when no frame was read. -/
theorem recv_of_unread {w : Wire} {side : Side} {error : Fault} {rest : Stream}
    (unread : Stream.readFrame (w.ends side).stream = .error error rest) :
    w.recv side = { w with
      ends := Function.update w.ends side (finalState (SecureChannel.recv (w.ends side))) } := by
  simp only [recv, unread, returned_error, Option.isSome_none, Bool.false_eq_true, if_false]

/-- A frame that was read is one attempt to decrypt. -/
theorem recv_of_read {w : Wire} {side : Side} {ciphertext : Bytes} {rest : Stream}
    (read : Stream.readFrame (w.ends side).stream = .ok ciphertext rest) :
    w.recv side = { w with
      ends := Function.update w.ends side (finalState (SecureChannel.recv (w.ends side)))
      attempts := Function.update w.attempts side
        (w.attempts side ++ [returned (SecureChannel.recv (w.ends side))]) } := by
  simp only [recv, read, returned_ok, Option.isSome_some, if_true]

/-- What a step leads to. -/
def after (w : Wire) : WireAct → Wire
  | .send side plaintext => w.send side plaintext
  | .recv side => w.recv side
  | .tamper side incoming => w.feed side incoming
  | .deliver side count =>
      { w.feed side ((w.ends side).stream.incoming ++ (w.inFlight side).take count) with
        inFlight := Function.update w.inFlight side ((w.inFlight side).drop count) }

/-- Encryption is ideal: what the end decrypts next, if anything, was encrypted at one of the
two ends under the same nonce. -/
def Ideal (w : Wire) (side : Side) : Prop :=
  ∀ ciphertext rest plaintext, Stream.readFrame (w.ends side).stream = .ok ciphertext rest →
    aesGcmDecrypt (w.ends side).key (SecureChannel.nonceOf (w.ends side).recvNumber) []
      ciphertext = some plaintext →
    ∃ side' sent, sent ∈ w.sent side' ∧
      sent.nonce = SecureChannel.nonceOf (w.ends side).recvNumber ∧
      sent.ciphertext = some ciphertext

/-- A step with an attacker on the network. -/
def Attacked (_ : List WireAct) (w : Wire) (act : WireAct) (w' : Wire) : Prop :=
  w' = w.after act ∧ ∀ side, act = .recv side → w.Ideal side

end

/-! ## Nonces -/

/-- Different numbers have different nonces. -/
theorem nonceOf_injective {first second : UInt64}
    (same : SecureChannel.nonceOf first = SecureChannel.nonceOf second) : first = second := by
  have bytes : toLE 8 first.toNat = toLE 8 second.toNat :=
    List.append_inj_left (congrArg List.Vector.toList same)
      (by rw [length_toLE, length_toLE])
  have values := congrArg ofLE bytes
  rw [ofLE_toLE_of_lt first.toNat_lt, ofLE_toLE_of_lt second.toNat_lt] at values
  exact UInt64.toNat_inj.mp values

/-- The numbers of an end go up by two. -/
theorem toNat_number (side : Side) {count : Nat} (few : count < 2 ^ 63) :
    (number side count).toNat = 2 * count + side.parity.toNat := by
  have doubled : (UInt64.ofNat count * 2).toNat = 2 * count := by
    rw [UInt64.toNat_mul, UInt64.toNat_ofNat']
    change count % 2 ^ 64 * 2 % 2 ^ 64 = _
    omega
  have small : side.parity.toUInt64.toNat = side.parity.toNat := UInt8.toNat_toUInt64 _
  have bit : side.parity.toNat < 2 := by cases side <;> decide
  unfold number
  rw [UInt64.toNat_add, doubled, small]
  omega

/-- The first 2^63 nonces of the two ends are distinct. -/
theorem number_injective {side side' : Side} {count count' : Nat} (few : count < 2 ^ 63)
    (few' : count' < 2 ^ 63) (same : number side count = number side' count') :
    side = side' ∧ count = count' := by
  have values := congrArg UInt64.toNat same
  rw [toNat_number side few, toNat_number side' few'] at values
  cases side <;> cases side' <;> simp only [Side.parity] at values
  · exact ⟨rfl, by omega⟩
  · change 2 * count + 0 = 2 * count' + 1 at values
    omega
  · change 2 * count + 1 = 2 * count' + 0 at values
    omega
  · exact ⟨rfl, by omega⟩

/-! ## What every step keeps -/

section

variable [Primitives]

/-- An end counts its calls, and sends each message under the next of its nonces. -/
structure Counts (key : MasterKey) (side : Side) (channel : SecureChannel) (sent : List Sent)
    (attempts : List (Option Bytes)) : Prop where
  keyed : channel.key = key
  parity : channel.sendParity = side.parity
  sends : channel.sendCounter = UInt64.ofNat sent.length
  recvs : channel.recvCounter = UInt64.ofNat attempts.length
  nonces : sent.map Sent.nonce =
    (List.range sent.length).map fun count => SecureChannel.nonceOf (number side count)
  encrypted : ∀ item ∈ sent, item.ciphertext = aesGcmEncrypt key item.nonce [] item.plaintext

namespace Counts

variable {key : MasterKey} {side : Side} {channel : SecureChannel} {sent : List Sent}
  {attempts : List (Option Bytes)} (counts : Counts key side channel sent attempts)

include counts

/-- How often an end has sent is its number for sending. -/
theorem sendNumber_eq : channel.sendNumber = number side sent.length := by
  unfold SecureChannel.sendNumber number
  rw [counts.sends, counts.parity]

/-- How often it has tried to receive is its number for receiving. -/
theorem recvNumber_eq : channel.recvNumber = number side.other attempts.length := by
  unfold SecureChannel.recvNumber number
  rw [counts.recvs, counts.parity]
  cases side <;> rfl

/-- The nonce of a message is the one of its number. -/
theorem nonce_eq {count : Nat} {item : Sent} (place : sent[count]? = some item) :
    item.nonce = SecureChannel.nonceOf (number side count) := by
  have below : count < sent.length := (List.getElem?_eq_some_iff.mp place).1
  have nonces := congrArg (fun nonces : List _ => nonces[count]?) counts.nonces
  rw [List.getElem?_map, List.getElem?_map, place, List.getElem?_range below] at nonces
  exact Option.some.inj nonces

/-- Sending counts. -/
theorem send (plaintext : Bytes) : Counts key side (finalState (channel.send plaintext))
    (sent ++ [⟨SecureChannel.nonceOf channel.sendNumber, plaintext,
      aesGcmEncrypt channel.key (SecureChannel.nonceOf channel.sendNumber) [] plaintext⟩])
    attempts := by
  obtain ⟨outgoing, reached⟩ := SecureChannel.finalState_send plaintext channel
  rw [reached]
  refine ⟨counts.keyed, counts.parity, ?_, counts.recvs, ?_, ?_⟩
  · change channel.sendCounter + 1 = _
    rw [counts.sends, List.length_append, List.length_singleton, UInt64.ofNat_add,
      UInt64.ofNat_one]
  · rw [List.map_append, counts.nonces, List.length_append, List.length_singleton,
      List.range_succ, List.map_append, counts.sendNumber_eq]
    rfl
  · intro item member
    rcases List.mem_append.mp member with earlier | last
    · exact counts.encrypted item earlier
    · rw [List.mem_singleton.mp last, counts.keyed]

/-- What comes in is not counted yet. -/
theorem feed (incoming : Bytes) :
    Counts key side { channel with stream := { channel.stream with incoming } } sent attempts :=
  ⟨counts.keyed, counts.parity, counts.sends, counts.recvs, counts.nonces, counts.encrypted⟩

/-- A frame that cannot be read is not counted. -/
theorem recv_unread {error : Fault} {rest : Stream}
    (unread : Stream.readFrame channel.stream = .error error rest) :
    Counts key side (finalState (SecureChannel.recv channel)) sent attempts := by
  rw [SecureChannel.recv_of_unread unread]
  exact ⟨counts.keyed, counts.parity, counts.sends, counts.recvs, counts.nonces, counts.encrypted⟩

/-- A frame that is read is. -/
theorem recv_read {ciphertext : Bytes} {rest : Stream}
    (read : Stream.readFrame channel.stream = .ok ciphertext rest) (outcome : Option Bytes) :
    Counts key side (finalState (SecureChannel.recv channel)) sent (attempts ++ [outcome]) := by
  rw [SecureChannel.finalState_recv read]
  refine ⟨counts.keyed, counts.parity, counts.sends, ?_, counts.nonces, counts.encrypted⟩
  change channel.recvCounter + 1 = _
  rw [counts.recvs, List.length_append, List.length_singleton, UInt64.ofNat_add,
    UInt64.ofNat_one]

end Counts

/-- Both ends count their calls. -/
def Counted (key : MasterKey) (w : Wire) : Prop :=
  ∀ side, Counts key side (w.ends side) (w.sent side) (w.attempts side)

/-- What comes in is not counted on the wire. -/
theorem Counted.feed {key : MasterKey} {w : Wire} (counted : w.Counted key) (side : Side)
    (incoming : Bytes) : (w.feed side incoming).Counted key := by
  intro side'
  by_cases same : side' = side
  · subst same
    simp only [Wire.feed, Function.update_self]
    exact (counted side').feed incoming
  · simp only [Wire.feed, Function.update_of_ne same]
    exact counted side'

/-- Nothing is counted at first. -/
theorem counted_opened (key : MasterKey) (outgoing : Side → Bytes) :
    (opened key outgoing).Counted key :=
  fun _ => ⟨rfl, rfl, rfl, rfl, rfl, fun _ member => absurd member List.not_mem_nil⟩

/-- Every act is counted. -/
theorem Counted.after {key : MasterKey} {w : Wire} (counted : w.Counted key) (act : WireAct) :
    (w.after act).Counted key := by
  intro side'
  cases act with
  | send side plaintext =>
      by_cases same : side' = side
      · subst same
        simp only [Wire.after, Wire.send, Function.update_self]
        exact (counted side').send plaintext
      · simp only [Wire.after, Wire.send, Function.update_of_ne same]
        exact counted side'
  | recv side =>
      change Counts key side' ((w.recv side).ends side') ((w.recv side).sent side')
        ((w.recv side).attempts side')
      cases read : Stream.readFrame (w.ends side).stream with
      | error error rest =>
          rw [recv_of_unread read]
          by_cases same : side' = side
          · subst same
            simp only [Function.update_self]
            exact (counted side').recv_unread read
          · simp only [Function.update_of_ne same]
            exact counted side'
      | ok ciphertext rest =>
          rw [recv_of_read read]
          by_cases same : side' = side
          · subst same
            simp only [Function.update_self]
            exact (counted side').recv_read read _
          · simp only [Function.update_of_ne same]
            exact counted side'
  | tamper side incoming => exact counted.feed side incoming side'
  | deliver side count => exact counted.feed side _ side'

/-! ## An attacker on the network -/

/-- What a receive returns after it has read a frame. -/
theorem returned_recv {channel : SecureChannel} {ciphertext : Bytes} {rest : Stream}
    (read : Stream.readFrame channel.stream = .ok ciphertext rest) :
    returned (SecureChannel.recv channel) =
      aesGcmDecrypt channel.key (SecureChannel.nonceOf channel.recvNumber) [] ciphertext := by
  have decrypted : returned (observe (SecureChannel.decrypt
      (SecureChannel.nonceOf channel.recvNumber) ciphertext)
        { channel with stream := rest, recvCounter := channel.recvCounter + 1 }) =
      aesGcmDecrypt channel.key (SecureChannel.nonceOf channel.recvNumber) [] ciphertext := by
    unfold observe SecureChannel.decrypt
    dsimp only
    cases aesGcmDecrypt channel.key (SecureChannel.nonceOf channel.recvNumber) [] ciphertext <;>
      rfl
  rw [SecureChannel.recv_of_read read, decrypted]

/-- Every message received was sent by one of the ends, under the nonce that the attempt to
decrypt it took. -/
def Authentic (w : Wire) : Prop :=
  ∀ side count plaintext, (w.attempts side)[count]? = some (some plaintext) →
    ∃ side' item, item ∈ w.sent side' ∧
      item.nonce = SecureChannel.nonceOf (number side.other count) ∧ item.plaintext = plaintext

/-- What decrypts is what was encrypted. -/
theorem Counted.exists_sent [Lawful] {key : MasterKey} {w : Wire} (counted : w.Counted key)
    (expanding : SecureChannel.Expanding) {side : Side} {ciphertext plaintext : Bytes}
    {rest : Stream} (ideal : w.Ideal side)
    (read : Stream.readFrame (w.ends side).stream = .ok ciphertext rest)
    (decrypted : aesGcmDecrypt (w.ends side).key
      (SecureChannel.nonceOf (w.ends side).recvNumber) [] ciphertext = some plaintext) :
    ∃ side' item, item ∈ w.sent side' ∧
      item.nonce = SecureChannel.nonceOf (number side.other (w.attempts side).length) ∧
      item.plaintext = plaintext := by
  obtain ⟨side', item, member, nonce, made⟩ := ideal ciphertext rest plaintext read decrypted
  have encrypted := (counted side').encrypted item member
  rw [made] at encrypted
  have length := expanding _ _ _ _ _ encrypted.symm
  have short := Stream.length_of_readFrame read
  have small : item.plaintext.length ≤ aesGcmMax :=
    (show item.plaintext.length ≤ maxFrameLen by omega).trans (by decide)
  obtain ⟨other, encrypted', _, opens⟩ := Lawful.encrypts key item.nonce [] item.plaintext small
  rw [← encrypted] at encrypted'
  cases encrypted'
  rw [(counted side).keyed, ← nonce, opens] at decrypted
  rw [(counted side).recvNumber_eq] at nonce
  exact ⟨side', item, member, nonce, Option.some.inj decrypted⟩

/-- Every act leaves the messages authentic. -/
theorem Authentic.after [Lawful] {key : MasterKey} {w : Wire} (authentic : w.Authentic)
    (counted : w.Counted key) (expanding : SecureChannel.Expanding) {act : WireAct}
    (ideal : ∀ side, act = .recv side → w.Ideal side) : (w.after act).Authentic := by
  cases act with
  | send side plaintext =>
      intro side' count received place
      obtain ⟨sender, item, member, nonce, same⟩ := authentic side' count received place
      refine ⟨sender, item, ?_, nonce, same⟩
      change item ∈ Function.update w.sent side _ sender
      by_cases sending : sender = side
      · subst sending
        rw [Function.update_self]
        exact List.mem_append_left _ member
      · rwa [Function.update_of_ne sending]
  | recv side =>
      change (w.recv side).Authentic
      cases read : Stream.readFrame (w.ends side).stream with
      | error error rest =>
          rw [recv_of_unread read]
          exact authentic
      | ok ciphertext rest =>
          rw [recv_of_read read]
          intro side' count received place
          dsimp only at place
          by_cases receiving : side' = side
          · subst receiving
            rw [Function.update_self, List.getElem?_append] at place
            split at place
            · exact authentic side' count received place
            · rename_i beyond
              rw [List.getElem?_singleton] at place
              split at place
              · rename_i last
                rw [returned_recv read, Option.some.injEq] at place
                obtain rfl : count = (w.attempts side').length := by omega
                exact counted.exists_sent expanding (ideal side' rfl) read place
              · cases place
          · rw [Function.update_of_ne receiving] at place
            exact authentic side' count received place
  | tamper side incoming => exact authentic
  | deliver side count => exact authentic

/-- Every state that an attacker can bring about counts the calls and is authentic. -/
theorem attacked_spec [Lawful] (expanding : SecureChannel.Expanding) {key : MasterKey}
    {outgoing : Side → Bytes} {trace : List WireAct} {w : Wire}
    (run : Runs Attacked (opened key outgoing) trace w) : w.Counted key ∧ w.Authentic := by
  refine run.invariant (fun w => w.Counted key ∧ w.Authentic)
    ⟨counted_opened key outgoing, fun _ _ _ place => by cases place⟩ ?_
  rintro trace w act w' ⟨counted, authentic⟩ ⟨rfl, ideal⟩
  exact ⟨counted.after act, authentic.after counted expanding ideal⟩

end

end Wire

end ReVault
