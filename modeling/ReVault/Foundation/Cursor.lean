import ReVault.Foundation.Bytes

/-!
# Cursor parsers

Parsers that walk a buffer with a position and may fail. `ParsesFrom` says what a
parser returns on a given encoding once the bytes before it have been consumed,
whatever follows; encodings written as a list of fields are parsed field by field.
-/

namespace ReVault.Foundation

/-- A buffer and the position reached in it. -/
structure Cursor where
  buf : Bytes
  pos : Nat

/-- A parser over a cursor. -/
abbrev Parser (ε α : Type) := StateT Cursor (Except ε) α

variable {ε α β : Type}

namespace Parser

/-- Consumes exactly `count` bytes, or fails with `short`. -/
def take (short : ε) (count : Nat) : Parser ε Bytes := fun cursor =>
  if cursor.pos + count > cursor.buf.length then .error short
  else .ok ((cursor.buf.drop cursor.pos).take count, { cursor with pos := cursor.pos + count })

/-- The part of the buffer already consumed. -/
def consumed : Parser ε Bytes := fun cursor => .ok (cursor.buf.take cursor.pos, cursor)

/-- Stops with an error when a condition holds. -/
def reject (condition : Prop) [Decidable condition] (error : ε) : Parser ε Unit := fun cursor =>
  if condition then .error error else .ok ((), cursor)

end Parser

/-- After the bytes `before`, the parser consumes exactly `encoding` and returns `value`. -/
def ParsesFrom (before : Bytes) (parser : Parser ε α) (encoding : Bytes) (value : α) : Prop :=
  ∀ after, parser ⟨before ++ (encoding ++ after), before.length⟩ =
    .ok (value, ⟨before ++ (encoding ++ after), (before ++ encoding).length⟩)

/-- A value reads nothing. -/
theorem ParsesFrom.pure (before : Bytes) (value : α) :
    ParsesFrom before (Pure.pure value : Parser ε α) [] value := by
  intro after
  rw [List.append_nil]
  rfl

/-- One parser after another. -/
theorem ParsesFrom.bind {before first second : Bytes} {parser : Parser ε α}
    {next : α → Parser ε β} {value : α} {result : β}
    (head : ParsesFrom before parser first value)
    (tail : ParsesFrom (before ++ first) (next value) second result) :
    ParsesFrom before (parser >>= next) (first ++ second) result := by
  intro after
  have started := head (second ++ after)
  have finished := tail after
  rw [List.append_assoc before first] at finished
  rw [List.append_assoc first second after]
  change Except.bind (parser _) (fun pair => next pair.1 pair.2) = _
  rw [started]
  change next value _ = _
  rw [finished, List.append_assoc]

/-- One field of an encoding given as a list of fields. -/
theorem ParsesFrom.field {before first : Bytes} {fields : List Bytes} {parser : Parser ε α}
    {next : α → Parser ε β} {value : α} {result : β}
    (head : ParsesFrom before parser first value)
    (tail : ParsesFrom (before ++ first) (next value) fields.flatten result) :
    ParsesFrom before (parser >>= next) (first :: fields).flatten result := by
  rw [List.flatten_cons]
  exact head.bind tail

/-- A length-prefixed field is two fields of the encoding. -/
theorem ParsesFrom.field₂ {before first second : Bytes} {fields : List Bytes}
    {parser : Parser ε α} {next : α → Parser ε β} {value : α} {result : β}
    (head : ParsesFrom before parser (first ++ second) value)
    (tail : ParsesFrom (before ++ (first ++ second)) (next value) fields.flatten result) :
    ParsesFrom before (parser >>= next) (first :: second :: fields).flatten result := by
  rw [List.flatten_cons, List.flatten_cons, ← List.append_assoc]
  exact head.bind tail

/-- A step that consumes nothing. -/
theorem ParsesFrom.check {before encoding : Bytes} {parser : Parser ε α}
    {next : α → Parser ε β} {value : α} {result : β}
    (head : ParsesFrom before parser [] value)
    (tail : ParsesFrom before (next value) encoding result) :
    ParsesFrom before (parser >>= next) encoding result := by
  have whole : ParsesFrom before (parser >>= next) ([] ++ encoding) result :=
    head.bind (by rwa [List.append_nil])
  rwa [List.nil_append] at whole

/-- So many bytes are taken. -/
theorem ParsesFrom.take (before : Bytes) (short : ε) {count : Nat} {encoding : Bytes}
    (sized : encoding.length = count) :
    ParsesFrom before (Parser.take short count) encoding encoding := by
  subst sized
  intro after
  unfold Parser.take
  rw [if_neg (by simp only [List.length_append]; omega), List.drop_left, List.take_left,
    List.length_append]

/-- What has been read so far. -/
theorem ParsesFrom.consumed (before : Bytes) :
    ParsesFrom before (Parser.consumed : Parser ε Bytes) [] before := by
  intro after
  unfold Parser.consumed
  rw [List.take_left, List.append_nil]

/-- A check that passes reads nothing. -/
theorem ParsesFrom.reject (before : Bytes) {condition : Prop} [Decidable condition] {error : ε}
    (passes : ¬ condition) :
    ParsesFrom before (Parser.reject condition error) [] () := by
  intro after
  unfold Parser.reject
  rw [if_neg passes, List.append_nil]

/-- Mapping the value of a parser. -/
theorem ParsesFrom.map {before encoding : Bytes} {parser : Parser ε α} {value : α}
    (head : ParsesFrom before parser encoding value) (convert : α → β) :
    ParsesFrom before (parser >>= fun found => Pure.pure (convert found)) encoding
      (convert value) := by
  have whole : ParsesFrom before (parser >>= fun found => Pure.pure (convert found))
      (encoding ++ []) (convert value) :=
    head.bind (ParsesFrom.pure (before ++ encoding) (convert value))
  rwa [List.append_nil] at whole

/-- A parse from the start of a buffer. -/
theorem ParsesFrom.run {parser : Parser ε α} {encoding : Bytes} {value : α}
    (parses : ParsesFrom [] parser encoding value) (after : Bytes) :
    parser ⟨encoding ++ after, 0⟩ = .ok (value, ⟨encoding ++ after, encoding.length⟩) :=
  parses after

/-! ## Running a sequence -/

/-- What follows a parser that succeeds. -/
theorem Parser.bind_of_ok {parser : Parser ε α} {next : α → Parser ε β}
    {cursor reached : Cursor} {value : α} (succeeded : parser cursor = .ok (value, reached)) :
    (parser >>= next) cursor = next value reached := by
  change Except.bind (parser cursor) (fun pair => next pair.1 pair.2) = _
  rw [succeeded]
  rfl

/-- Nothing follows one that fails. -/
theorem Parser.bind_of_error {parser : Parser ε α} {next : α → Parser ε β} {cursor : Cursor}
    {error : ε} (failed : parser cursor = .error error) :
    (parser >>= next) cursor = .error error := by
  change Except.bind (parser cursor) (fun pair => next pair.1 pair.2) = _
  rw [failed]
  rfl

/-- A sequence succeeds when its parts do, one after the other. -/
theorem Parser.bind_eq_ok_iff {parser : Parser ε α} {next : α → Parser ε β} {cursor : Cursor}
    {result : β × Cursor} : (parser >>= next) cursor = .ok result ↔
      ∃ value reached, parser cursor = .ok (value, reached) ∧
        next value reached = .ok result := by
  cases ran : parser cursor with
  | error error =>
      rw [Parser.bind_of_error ran]
      simp only [reduceCtorEq, false_and, exists_false]
  | ok pair =>
      rw [Parser.bind_of_ok ran]
      constructor
      · exact fun succeeded => ⟨pair.1, pair.2, rfl, succeeded⟩
      · rintro ⟨_, _, same, succeeded⟩
        cases same
        exact succeeded

/-- Bytes that are there are taken. -/
theorem Parser.take_of_le {short : ε} {count : Nat} {cursor : Cursor}
    (enough : cursor.pos + count ≤ cursor.buf.length) :
    Parser.take short count cursor = .ok ((cursor.buf.drop cursor.pos).take count,
      { cursor with pos := cursor.pos + count }) :=
  if_neg (Nat.not_lt.mpr enough)

/-- Bytes that are missing are not. -/
theorem Parser.take_of_lt {short : ε} {count : Nat} {cursor : Cursor}
    (less : cursor.buf.length < cursor.pos + count) :
    Parser.take short count cursor = .error short :=
  if_pos less

/-! ## What a success says -/

/-- Whenever the parser succeeds, it has consumed an encoding of its value, and it would have
done so whatever followed. -/
def Consumes (parser : Parser ε α) (encodes : α → Bytes → Prop) : Prop :=
  ∀ (before input : Bytes) (value : α) (reached : Cursor),
    parser ⟨before ++ input, before.length⟩ = .ok (value, reached) →
      ∃ encoding after, input = encoding ++ after ∧ encodes value encoding ∧
        reached = ⟨before ++ input, (before ++ encoding).length⟩ ∧
        ParsesFrom before parser encoding value

/-- A weaker relation between values and what was read. -/
theorem Consumes.mono {parser : Parser ε α} {encodes encodes' : α → Bytes → Prop}
    (consumes : Consumes parser encodes)
    (implies : ∀ value encoding, encodes value encoding → encodes' value encoding) :
    Consumes parser encodes' := by
  intro before input value reached succeeded
  obtain ⟨encoding, after, split, encoded, rest⟩ := consumes before input value reached succeeded
  exact ⟨encoding, after, split, implies value encoding encoded, rest⟩

/-- A value is made of nothing. -/
theorem Consumes.pure (value : α) :
    Consumes (Pure.pure value : Parser ε α)
      fun found encoding => found = value ∧ encoding = [] := by
  intro before input found reached succeeded
  cases succeeded
  refine ⟨[], input, rfl, ⟨rfl, rfl⟩, ?_, ParsesFrom.pure before value⟩
  rw [List.append_nil]

/-- The bytes that are taken are those that are read. -/
theorem Consumes.take (short : ε) (count : Nat) :
    Consumes (Parser.take short count) fun found encoding =>
      encoding = found ∧ found.length = count := by
  intro before input found reached succeeded
  by_cases enough : count ≤ input.length
  · have taken : (input.take count).length = count := List.length_take_of_le enough
    rw [Parser.take_of_le (by simp only [List.length_append]; omega), List.drop_left]
      at succeeded
    cases succeeded
    refine ⟨input.take count, input.drop count, (List.take_append_drop count input).symm,
      ⟨rfl, taken⟩, ?_, ParsesFrom.take before short taken⟩
    rw [List.length_append, taken]
  · rw [Parser.take_of_lt (by simp only [List.length_append]; omega)] at succeeded
    cases succeeded

/-- One parser after another. -/
theorem Consumes.bind {parser : Parser ε α} {next : α → Parser ε β}
    {encodes : α → Bytes → Prop} {encodes' : α → β → Bytes → Prop}
    (head : Consumes parser encodes) (tail : ∀ value, Consumes (next value) (encodes' value)) :
    Consumes (parser >>= next) fun result encoding => ∃ value first second,
      encoding = first ++ second ∧ encodes value first ∧ encodes' value result second := by
  intro before input result reached succeeded
  obtain ⟨value, middle, ran, succeeded⟩ := Parser.bind_eq_ok_iff.mp succeeded
  obtain ⟨first, between, rfl, encoded, rfl, parses⟩ := head before input value middle ran
  rw [← List.append_assoc] at succeeded
  obtain ⟨second, after, rfl, encoded', rfl, parses'⟩ :=
    tail value (before ++ first) between result reached succeeded
  refine ⟨first ++ second, after, (List.append_assoc ..).symm,
    ⟨value, first, second, rfl, encoded, encoded'⟩, ?_, parses.bind parses'⟩
  simp only [List.append_assoc]

/-- A parser that never succeeds. -/
theorem Consumes.fail (error : ε) (encodes : α → Bytes → Prop) :
    Consumes (fun _ => .error error : Parser ε α) encodes := by
  intro before input value reached succeeded
  cases succeeded

/-! ## What a value satisfies -/

/-- Every value that the parser returns satisfies a predicate. -/
def Ensures (parser : Parser ε α) (post : α → Prop) : Prop :=
  ∀ (cursor : Cursor) (value : α) (reached : Cursor), parser cursor = .ok (value, reached) →
    post value

/-- A value that is as it should be. -/
theorem Ensures.pure {value : α} {post : α → Prop} (holds : post value) :
    Ensures (Pure.pure value : Parser ε α) post := by
  intro cursor found reached succeeded
  cases succeeded
  exact holds

/-- What the last parser ensures. -/
theorem Ensures.bind {parser : Parser ε α} {next : α → Parser ε β} {post : β → Prop}
    (tail : ∀ value, Ensures (next value) post) : Ensures (parser >>= next) post := by
  intro cursor result reached succeeded
  obtain ⟨value, middle, _, succeeded⟩ := Parser.bind_eq_ok_iff.mp succeeded
  exact tail value middle result reached succeeded

/-- Behind a check its condition is known to fail. -/
theorem Ensures.reject {condition : Prop} [Decidable condition] {error : ε}
    {next : Unit → Parser ε β} {post : β → Prop}
    (tail : ¬ condition → Ensures (next ()) post) :
    Ensures (Parser.reject condition error >>= next) post := by
  intro cursor result reached succeeded
  obtain ⟨_, middle, passed, succeeded⟩ := Parser.bind_eq_ok_iff.mp succeeded
  unfold Parser.reject at passed
  split at passed
  · cases passed
  · rename_i passes
    exact tail passes middle result reached succeeded

end ReVault.Foundation
