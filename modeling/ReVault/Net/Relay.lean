import ReVault.Net.Wire

/-!
# An honest network

An honest network brings what the other end has written, in order and in pieces of any size,
and a call of `recv` waits until all of a frame has arrived. Nothing is lost, so every
message is received in the order in which it was sent.
-/

namespace ReVault

open Foundation Primitives

/-- What a message puts on the wire, unless it is too long. -/
def Sent.written (item : Sent) : Bytes :=
  match item.ciphertext with
  | some ciphertext => Stream.frame ciphertext
  | none => []

namespace Wire

section

variable [Primitives]

/-- All of the next frame has arrived. -/
def Holds (w : Wire) (side : Side) : Prop :=
  4 ≤ (w.ends side).stream.incoming.length ∧
    4 + ofLE ((w.ends side).stream.incoming.take 4) ≤ (w.ends side).stream.incoming.length

/-- A step with an honest network: no message is too long for a frame, and a call of `recv`
waits until all of the frame has arrived. -/
def Relayed (_ : List WireAct) (w : Wire) (act : WireAct) (w' : Wire) : Prop :=
  w' = w.after act ∧
    match act with
    | .send _ plaintext => plaintext.length + tagLen ≤ maxFrameLen
    | .recv side => w.Holds side
    | .tamper _ _ => False
    | .deliver _ _ => True

/-- A message that fits in a frame and that the other end can decrypt. -/
def Opens (key : MasterKey) (item : Sent) : Prop :=
  ∃ ciphertext, item.ciphertext = some ciphertext ∧ ciphertext.length ≤ maxFrameLen ∧
    aesGcmDecrypt key item.nonce [] ciphertext = some item.plaintext

/-- Nothing is lost: an end has received the first messages of the other, in order, and the
frames of the rest are on their way to it. -/
structure Lossless (key : MasterKey) (w : Wire) : Prop where
  counted : w.Counted key
  opens : ∀ side, ∀ item ∈ w.sent side, Opens key item
  received : ∀ side, w.attempts side =
    ((w.sent side.other).take (w.attempts side).length).map fun item => some item.plaintext
  waiting : ∀ side, (w.ends side).stream.incoming ++ w.inFlight side =
    ((w.sent side.other).drop (w.attempts side).length).flatMap Sent.written

namespace Lossless

variable {key : MasterKey} {w : Wire} (lossless : w.Lossless key)

include lossless

/-- No more is received than was sent. -/
theorem attempts_le (side : Side) : (w.attempts side).length ≤ (w.sent side.other).length := by
  have lengths := congrArg List.length (lossless.received side)
  rw [List.length_map, List.length_take] at lengths
  omega

/-- The next message that an end has not received, and what is on its way. -/
theorem exists_next {side : Side} (fewer : (w.attempts side).length < (w.sent side.other).length) :
    ∃ item ciphertext, (w.sent side.other)[(w.attempts side).length]? = some item ∧
      item.ciphertext = some ciphertext ∧ ciphertext.length ≤ maxFrameLen ∧
      aesGcmDecrypt key item.nonce [] ciphertext = some item.plaintext ∧
      (w.ends side).stream.incoming ++ w.inFlight side = Stream.frame ciphertext ++
        ((w.sent side.other).drop ((w.attempts side).length + 1)).flatMap Sent.written := by
  have place := List.getElem?_eq_getElem fewer
  obtain ⟨ciphertext, made, short, decrypted⟩ :=
    lossless.opens side.other _ (List.mem_of_getElem? place)
  refine ⟨_, ciphertext, place, made, short, decrypted, ?_⟩
  rw [lossless.waiting side, List.drop_eq_getElem_cons fewer, List.flatMap_cons]
  refine congrArg (· ++ _) ?_
  unfold Sent.written
  rw [made]

/-- A call that does not wait has a message to receive. -/
theorem fewer_of_holds {side : Side} (holds : w.Holds side) :
    (w.attempts side).length < (w.sent side.other).length := by
  by_contra all
  have waiting := lossless.waiting side
  rw [List.drop_eq_nil_of_le (Nat.le_of_not_lt all), List.flatMap_nil] at waiting
  have nothing := congrArg List.length (List.append_eq_nil_iff.mp waiting).1
  rw [List.length_nil] at nothing
  have some' := holds.1
  omega

/-- A call does not wait when everything has arrived and there is a message to receive. -/
theorem holds_of_arrived {side : Side}
    (fewer : (w.attempts side).length < (w.sent side.other).length)
    (arrived : w.inFlight side = []) : w.Holds side := by
  obtain ⟨item, ciphertext, _, _, short, _, frames⟩ := lossless.exists_next fewer
  rw [arrived, List.append_nil] at frames
  unfold Holds
  rw [frames, Stream.frame, List.append_assoc,
    List.take_left' (length_toLE 4 ciphertext.length),
    ofLE_toLE_of_lt (Nat.lt_of_le_of_lt short (by decide)), List.length_append, length_toLE,
    List.length_append]
  omega

/-- A call that does not wait receives the next message. -/
theorem exists_recv {side : Side} (holds : w.Holds side) :
    ∃ item ciphertext rest, (w.sent side.other)[(w.attempts side).length]? = some item ∧
      item.ciphertext = some ciphertext ∧
      Stream.readFrame (w.ends side).stream =
        .ok ciphertext { (w.ends side).stream with incoming := rest } ∧
      rest ++ w.inFlight side =
        ((w.sent side.other).drop ((w.attempts side).length + 1)).flatMap Sent.written ∧
      SecureChannel.recv (w.ends side) = .ok item.plaintext { w.ends side with
        recvCounter := (w.ends side).recvCounter + 1
        stream := { (w.ends side).stream with incoming := rest } } := by
  obtain ⟨item, ciphertext, place, made, short, decrypted, frames⟩ :=
    lossless.exists_next (lossless.fewer_of_holds holds)
  have start : (w.ends side).stream.incoming.take 4 = toLE 4 ciphertext.length := by
    have front := congrArg (List.take 4) frames
    rw [List.take_append_of_le_length holds.1, Stream.frame, List.append_assoc,
      List.take_left' (length_toLE 4 ciphertext.length)] at front
    exact front
  have enough : (Stream.frame ciphertext).length ≤ (w.ends side).stream.incoming.length := by
    have all := holds.2
    rw [start, ofLE_toLE_of_lt (Nat.lt_of_le_of_lt short (by decide))] at all
    rwa [Stream.frame, List.length_append, length_toLE]
  obtain ⟨rest, incoming⟩ : Stream.frame ciphertext <+: (w.ends side).stream.incoming :=
    List.prefix_of_prefix_length_le ⟨_, frames.symm⟩ (List.prefix_append _ _) enough
  rw [← incoming, List.append_assoc] at frames
  have nonce := (lossless.counted side.other).nonce_eq place
  rw [nonce, ← (lossless.counted side).recvNumber_eq, ← (lossless.counted side).keyed] at decrypted
  exact ⟨item, ciphertext, rest, place, made, Stream.readFrame_of_incoming incoming.symm short,
    List.append_cancel_left frames, SecureChannel.recv_of_frame incoming.symm short decrypted⟩

/-- An honest network forges nothing. -/
theorem ideal {side : Side} (holds : w.Holds side) : w.Ideal side := by
  obtain ⟨item, ciphertext, rest, place, made, read, _, _⟩ := lossless.exists_recv holds
  intro other rest' plaintext read' _
  rw [read] at read'
  cases read'
  refine ⟨side.other, item, List.mem_of_getElem? place, ?_, made⟩
  rw [(lossless.counted side).recvNumber_eq]
  exact (lossless.counted side.other).nonce_eq place

/-- Sending loses nothing. -/
theorem send [Lawful] (side : Side) {plaintext : Bytes}
    (short : plaintext.length + tagLen ≤ maxFrameLen) : (w.send side plaintext).Lossless key := by
  obtain ⟨ciphertext, fits, encrypted, decrypted, ran⟩ := (w.ends side).exists_sent short
  have keyed := (lossless.counted side).keyed
  have final : finalState ((w.ends side).send plaintext) = { w.ends side with
      sendCounter := (w.ends side).sendCounter + 1
      stream := { (w.ends side).stream with
        outgoing := (w.ends side).stream.outgoing ++ Stream.frame ciphertext } } := by
    rw [ran]
    rfl
  have after : w.send side plaintext = { w with
      ends := Function.update w.ends side { w.ends side with
        sendCounter := (w.ends side).sendCounter + 1
        stream := { (w.ends side).stream with
          outgoing := (w.ends side).stream.outgoing ++ Stream.frame ciphertext } }
      inFlight := Function.update w.inFlight side.other
        (w.inFlight side.other ++ Stream.frame ciphertext)
      sent := Function.update w.sent side (w.sent side ++
        [⟨SecureChannel.nonceOf (w.ends side).sendNumber, plaintext, some ciphertext⟩]) } := by
    simp only [Wire.send, final, encrypted, List.drop_left]
  have counted := lossless.counted.after (.send side plaintext)
  change (w.send side plaintext).Counted key at counted
  rw [after] at counted ⊢
  refine ⟨counted, ?_, ?_, ?_⟩
  · intro side' item member
    dsimp only at member
    by_cases sending : side' = side
    · subst sending
      rw [Function.update_self] at member
      rcases List.mem_append.mp member with earlier | last
      · exact lossless.opens side' item earlier
      · rw [List.mem_singleton.mp last]
        rw [keyed] at decrypted
        exact ⟨ciphertext, rfl, fits, decrypted⟩
    · rw [Function.update_of_ne sending] at member
      exact lossless.opens side' item member
  · intro side'
    dsimp only
    rcases Side.eq_or_eq_other side side' with rfl | rfl
    · rw [Function.update_of_ne side'.other_ne]
      exact lossless.received side'
    · have all := lossless.attempts_le side.other
      rw [Side.other_other] at all ⊢
      rw [Function.update_self, List.take_append_of_le_length all]
      have received := lossless.received side.other
      rwa [Side.other_other] at received
  · intro side'
    dsimp only
    rcases Side.eq_or_eq_other side side' with rfl | rfl
    · rw [Function.update_self, Function.update_of_ne side'.other_ne,
        Function.update_of_ne side'.other_ne.symm]
      exact lossless.waiting side'
    · have all := lossless.attempts_le side.other
      have waiting := lossless.waiting side.other
      rw [Side.other_other] at all waiting ⊢
      rw [Function.update_self, Function.update_self, Function.update_of_ne side.other_ne,
        List.drop_append_of_le_length all, List.flatMap_append, ← waiting, List.append_assoc,
        List.flatMap_singleton]
      rfl

/-- Receiving what was sent loses nothing. -/
theorem recv {side : Side} (holds : w.Holds side) : (w.recv side).Lossless key := by
  obtain ⟨item, ciphertext, rest, place, _, read, frames, ran⟩ := lossless.exists_recv holds
  have counted := lossless.counted.after (.recv side)
  change (w.recv side).Counted key at counted
  rw [recv_of_read read, ran] at counted ⊢
  refine ⟨counted, lossless.opens, ?_, ?_⟩
  · intro side'
    dsimp only
    by_cases receiving : side' = side
    · subst receiving
      rw [Function.update_self, List.length_append, List.length_singleton, List.take_add_one, place,
        List.map_append, ← lossless.received side']
      rfl
    · rw [Function.update_of_ne receiving]
      exact lossless.received side'
  · intro side'
    dsimp only
    by_cases receiving : side' = side
    · subst receiving
      rw [Function.update_self, Function.update_self, List.length_append, List.length_singleton]
      exact frames
    · rw [Function.update_of_ne receiving, Function.update_of_ne receiving]
      exact lossless.waiting side'

/-- Delivering what was sent loses nothing. -/
theorem deliver (side : Side) (count : Nat) : (w.after (.deliver side count)).Lossless key := by
  refine ⟨lossless.counted.after _, lossless.opens, lossless.received, ?_⟩
  intro side'
  simp only [Wire.after, feed]
  by_cases feeding : side' = side
  · subst feeding
    rw [Function.update_self, Function.update_self]
    dsimp only
    rw [List.append_assoc, List.take_append_drop]
    exact lossless.waiting side'
  · rw [Function.update_of_ne feeding, Function.update_of_ne feeding]
    exact lossless.waiting side'

end Lossless

/-- An honest network loses nothing. -/
theorem relayed_spec [Lawful] {key : MasterKey} {outgoing : Side → Bytes}
    {trace : List WireAct} {w : Wire}
    (run : Runs Relayed (opened key outgoing) trace w) : w.Lossless key := by
  refine run.invariant (fun w => w.Lossless key) ?_ ?_
  · exact ⟨counted_opened key outgoing, fun _ _ member => absurd member List.not_mem_nil,
      fun _ => rfl, fun _ => rfl⟩
  · rintro trace w act w' lossless ⟨rfl, honest⟩
    cases act with
    | send side plaintext => exact lossless.send side honest
    | recv side => exact lossless.recv honest
    | tamper side incoming => exact absurd honest id
    | deliver side count => exact lossless.deliver side count

/-- An honest network does nothing that an attacker could not do. -/
theorem attacked_of_relayed [Lawful] {key : MasterKey} {outgoing : Side → Bytes}
    {trace : List WireAct} {w : Wire} (run : Runs Relayed (opened key outgoing) trace w) :
    Runs Attacked (opened key outgoing) trace w := by
  induction run with
  | nil => exact Runs.nil
  | snoc earlier taken ih =>
      obtain ⟨rfl, honest⟩ := taken
      refine ih.snoc ⟨rfl, fun side receives => ?_⟩
      subst receives
      exact (relayed_spec earlier).ideal honest

/-- **The channel.** With an attacker on the network, each of the first 2^63 attempts to
decrypt either fails or returns the message that the other end sent with that number, and no
two messages are sent under one nonce; with an honest network every attempt succeeds. -/
theorem secure_channel [Lawful] (expanding : SecureChannel.Expanding) (key : MasterKey)
    (outgoing : Side → Bytes) :
    (∀ trace w, Runs Attacked (opened key outgoing) trace w →
      (∀ side, (w.sent side).length < 2 ^ 63) →
      (∀ side (count : Nat) plaintext, count < 2 ^ 63 →
        (w.attempts side)[count]? = some (some plaintext) →
        ∃ item, (w.sent side.other)[count]? = some item ∧ item.plaintext = plaintext) ∧
      ∀ side side' (count count' : Nat) (item item' : Sent), (w.sent side)[count]? = some item →
        (w.sent side')[count']? = some item' → item.nonce = item'.nonce →
        side = side' ∧ count = count') ∧
    ∀ trace w, Runs Relayed (opened key outgoing) trace w → ∀ side,
      w.attempts side = ((w.sent side.other).take (w.attempts side).length).map
        (fun item => some item.plaintext) ∧
      (w.Holds side → ∃ item channel, (w.sent side.other)[(w.attempts side).length]? = some item ∧
        SecureChannel.recv (w.ends side) = .ok item.plaintext channel) ∧
      (w.inFlight side = [] → (w.attempts side).length < (w.sent side.other).length →
        w.Holds side) := by
  constructor
  · intro trace w run few
    obtain ⟨counted, authentic⟩ := attacked_spec expanding run
    have below : ∀ {side count item}, (w.sent side)[count]? = some item → count < 2 ^ 63 :=
      fun {side count item} place =>
        (List.getElem?_eq_some_iff.mp place).1.trans (few side)
    constructor
    · intro side count plaintext small place
      obtain ⟨sender, item, member, nonce, same⟩ := authentic side count plaintext place
      obtain ⟨number', sentAs⟩ := List.mem_iff_getElem?.mp member
      rw [(counted sender).nonce_eq sentAs] at nonce
      obtain ⟨rfl, rfl⟩ := number_injective (below sentAs) small (nonceOf_injective nonce)
      exact ⟨item, sentAs, same⟩
    · intro side side' count count' item item' place place' same
      rw [(counted side).nonce_eq place, (counted side').nonce_eq place'] at same
      exact number_injective (below place) (below place') (nonceOf_injective same)
  · intro trace w run side
    have lossless := relayed_spec run
    refine ⟨lossless.received side, fun holds => ?_, fun arrived fewer =>
      lossless.holds_of_arrived fewer arrived⟩
    obtain ⟨item, _, _, place, _, _, _, ran⟩ := lossless.exists_recv holds
    exact ⟨item, _, place, ran⟩

end

end Wire

namespace Transparent

open Wire

/-- A message that was sent comes out. -/
theorem secure_channel_sent : ∃ trace w,
    Runs Attacked (opened (zeroArr keyLen) fun _ => []) trace w ∧
    (w.attempts .responder)[0]? = some (some [7]) ∧
    ∃ item, (w.sent .initiator)[0]? = some item ∧ item.plaintext = [7] := by
  let sent := (opened (zeroArr keyLen) fun _ => []).after (.send .initiator [7])
  let arrived := sent.after (.deliver .responder (sent.inFlight .responder).length)
  have written : Runs Relayed (opened (zeroArr keyLen) fun _ => []) _ sent :=
    Runs.nil.snoc ⟨rfl, by decide⟩
  have brought : Runs Relayed (opened (zeroArr keyLen) fun _ => []) _ arrived :=
    written.snoc ⟨rfl, trivial⟩
  have lossless := relayed_spec brought
  have holds : arrived.Holds .responder :=
    lossless.holds_of_arrived Nat.one_pos (List.drop_length ..)
  obtain ⟨item, ciphertext, rest, place, _, read, _, ran⟩ := lossless.exists_recv holds
  have run := attacked_of_relayed
    (brought.snoc (show Relayed _ arrived (.recv .responder) _ from ⟨rfl, holds⟩))
  have message : item.plaintext = [7] := by
    rw [← Option.some.inj place]
  have attempted : ((arrived.after (.recv .responder)).attempts .responder)[0]? =
      some (some [7]) := by
    change ((arrived.recv .responder).attempts .responder)[0]? = _
    rw [recv_of_read read, ran, returned_ok, message]
    rfl
  have few : ∀ side, ((arrived.after (.recv .responder)).sent side).length < 2 ^ 63 := by
    intro side
    cases side
    · exact (by decide : 1 < 2 ^ 63)
    · exact (by decide : 0 < 2 ^ 63)
  exact ⟨_, _, run, attempted, ((secure_channel expanding (zeroArr keyLen) fun _ => []).1 _ _ run
    few).1 .responder 0 [7] (by decide) attempted⟩

end Transparent

end ReVault
