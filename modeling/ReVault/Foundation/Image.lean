import ReVault.Foundation.Bytes

/-!
# Byte images

A random-access file as a byte string: exact reads, writes that extend with
zeros, and the replay of a list of recorded writes. Reads that succeed survive
every write outside the range they read, and replaying a recorded patch a second
time changes nothing.
-/

namespace ReVault.Foundation

/-- The `length` bytes at an offset, when the image reaches that far. -/
def readAt (image : Bytes) (offset length : Nat) : Option Bytes :=
  if ((image.drop offset).take length).length = length then some ((image.drop offset).take length)
  else none

/-- Overwrites the bytes at an offset. A write past the end fills the gap with
zeros; an empty write changes nothing. -/
def writeAt (image : Bytes) (offset : Nat) (data : Bytes) : Bytes :=
  match data with
  | [] => image
  | _ :: _ => image.take offset ++ List.replicate (offset - image.length) 0 ++ data ++
      image.drop (offset + data.length)

/-- A window is read when every byte of it is there. -/
theorem readAt_eq_some_iff {image window : Bytes} {offset length : Nat} :
    readAt image offset length = some window ↔
      window.length = length ∧ ∀ index < length, image[offset + index]? = window[index]? := by
  unfold readAt
  constructor
  · intro found
    split at found
    · rename_i sized
      cases found
      refine ⟨sized, fun index below => ?_⟩
      rw [List.getElem?_take_of_lt below, List.getElem?_drop]
    · cases found
  · rintro ⟨sized, same⟩
    have equal : (image.drop offset).take length = window := by
      apply List.ext_getElem?
      intro index
      by_cases below : index < length
      · rw [List.getElem?_take_of_lt below, List.getElem?_drop, same index below]
      · rw [List.getElem?_eq_none (by rw [List.length_take]; omega),
          List.getElem?_eq_none (by omega)]
    simp only [equal, sized, ↓reduceIte]

/-- A successful nonempty read lies inside the image. -/
theorem le_length_of_readAt {image window : Bytes} {offset length : Nat}
    (found : readAt image offset length = some window) (positive : 0 < length) :
    offset + length ≤ image.length := by
  obtain ⟨sized, same⟩ := readAt_eq_some_iff.mp found
  have last := same (length - 1) (by omega)
  rw [List.getElem?_eq_getElem (by omega : length - 1 < window.length)] at last
  have := (List.getElem?_eq_some_iff.mp last).1
  omega

/-- A read inside the image succeeds. -/
theorem readAt_of_le {image : Bytes} {offset length : Nat}
    (inside : offset + length ≤ image.length) :
    readAt image offset length = some ((image.drop offset).take length) := by
  unfold readAt
  rw [if_pos]
  rw [List.length_take, List.length_drop]
  omega

/-- A longer image can be read wherever a shorter one can. -/
theorem exists_readAt_of_longer {image other window : Bytes} {offset length : Nat}
    (found : readAt image offset length = some window) (longer : image.length ≤ other.length) :
    ∃ window', readAt other offset length = some window' := by
  cases length with
  | zero =>
      exact ⟨[], readAt_eq_some_iff.mpr ⟨rfl, fun _ below => absurd below (Nat.not_lt_zero _)⟩⟩
  | succ length =>
      have inside := le_length_of_readAt found (Nat.succ_pos length)
      exact ⟨_, readAt_of_le (inside.trans longer)⟩

/-- A read of a prefix of an appended image stays inside the left part. -/
theorem readAt_append_left {left right : Bytes} {offset length : Nat}
    (inside : offset + length ≤ left.length) :
    readAt (left ++ right) offset length = readAt left offset length := by
  rw [readAt_of_le inside, readAt_of_le (by rw [List.length_append]; omega)]
  congr 1
  rw [List.drop_append_of_le_length (by omega), List.take_append_of_le_length
    (by rw [List.length_drop]; omega)]

/-- A read past the left part of an appended image reads the right part. -/
theorem readAt_append_right {left right : Bytes} {offset length : Nat}
    (past : left.length ≤ offset) :
    readAt (left ++ right) offset length = readAt right (offset - left.length) length := by
  unfold readAt
  rw [List.drop_append, List.drop_eq_nil_of_le past, List.nil_append]

/-- A read inside the middle part of an image. -/
theorem readAt_middle {before middle after window : Bytes} {base offset length : Nat}
    (starts : before.length = base) (inside : offset + length ≤ middle.length)
    (found : readAt middle offset length = some window) :
    readAt (before ++ (middle ++ after)) (base + offset) length = some window := by
  rw [readAt_append_right (by omega), starts, Nat.add_sub_cancel_left, readAt_append_left inside]
  exact found

/-- A read of one piece of an image made of equal pieces. -/
theorem readAt_flatten {width : Nat} {items : List Bytes}
    (equal : ∀ item ∈ items, item.length = width) {index : Nat} (below : index < items.length) :
    readAt items.flatten (index * width) width = some items[index] := by
  induction items generalizing index with
  | nil => exact absurd below (Nat.not_lt_zero index)
  | cons item rest ih =>
      have size := equal item List.mem_cons_self
      rw [List.flatten_cons]
      cases index with
      | zero =>
          rw [Nat.zero_mul, readAt_append_left (by omega), readAt_of_le (by omega),
            List.drop_zero, ← size, List.take_length]
          rfl
      | succ index =>
          rw [readAt_append_right (by rw [size, Nat.succ_mul]; omega), size, Nat.succ_mul,
            Nat.add_sub_cancel]
          exact ih (fun later member => equal later (List.mem_cons_of_mem item member))
            (Nat.lt_of_succ_lt_succ below)

/-- Items of one length, side by side. -/
theorem length_flatten_of_equal {width : Nat} {items : List Bytes}
    (equal : ∀ item ∈ items, item.length = width) :
    items.flatten.length = items.length * width := by
  induction items with
  | nil => exact (Nat.zero_mul width).symm
  | cons item rest ih =>
      rw [List.flatten_cons, List.length_append, equal item List.mem_cons_self,
        ih fun later member => equal later (List.mem_cons_of_mem item member), List.length_cons,
        Nat.succ_mul, Nat.add_comm]

/-- The whole image. -/
theorem readAt_self (image : Bytes) : readAt image 0 image.length = some image := by
  rw [readAt_of_le (by omega), List.drop_zero, List.take_length]

/-- Writing nothing changes nothing. -/
@[simp] theorem writeAt_nil (image : Bytes) (offset : Nat) : writeAt image offset [] = image := rfl

/-- Writing something, in one formula. -/
private theorem writeAt_of_ne_nil {data : Bytes} (image : Bytes) (offset : Nat)
    (nonempty : data ≠ []) :
    writeAt image offset data = image.take offset ++ List.replicate (offset - image.length) 0 ++
      data ++ image.drop (offset + data.length) := by
  cases data with
  | nil => exact absurd rfl nonempty
  | cons byte rest => rfl

/-- The byte at a position after a write: the written byte inside the range, the
old byte outside, a zero in a gap. -/
theorem getElem?_writeAt (image : Bytes) (offset : Nat) (data : Bytes) (index : Nat) :
    (writeAt image offset data)[index]? =
      if offset ≤ index ∧ index < offset + data.length then data[index - offset]?
      else if index < image.length then image[index]?
      else if index < offset ∧ data ≠ [] then some 0 else none := by
  by_cases nonempty : data = []
  · subst nonempty
    simp only [writeAt_nil, List.length_nil, Nat.add_zero, ne_eq, not_true_eq_false, and_false,
      ↓reduceIte]
    rw [if_neg (by omega)]
    split
    · rfl
    · rw [List.getElem?_eq_none (by omega)]
  · rw [writeAt_of_ne_nil image offset nonempty]
    have headLength : (image.take offset ++
        List.replicate (offset - image.length) (0 : UInt8)).length = offset := by
      rw [List.length_append, List.length_take, List.length_replicate]
      omega
    have size : 0 < data.length := List.length_pos_iff.mpr nonempty
    rw [List.getElem?_append, List.getElem?_append, List.length_append, headLength]
    by_cases before : index < offset
    · rw [if_pos (by omega), if_pos before, if_neg (by omega), List.getElem?_append,
        List.length_take]
      by_cases stored : index < image.length
      · rw [if_pos (by omega), if_pos stored, List.getElem?_take_of_lt before]
      · rw [if_neg (by omega), if_neg stored, if_pos ⟨before, nonempty⟩,
          List.getElem?_replicate_of_lt (by omega)]
    · by_cases inside : index < offset + data.length
      · rw [if_pos inside, if_neg before, if_pos ⟨by omega, inside⟩]
      · rw [if_neg inside, if_neg (by omega), List.getElem?_drop,
          show offset + data.length + (index - (offset + data.length)) = index by omega]
        split
        · rfl
        · rw [if_neg (by omega), List.getElem?_eq_none (by omega)]

/-- A write at the start replaces the first bytes. -/
theorem writeAt_zero (image data : Bytes) :
    writeAt image 0 data = data ++ image.drop data.length := by
  cases data with
  | nil => rfl
  | cons byte rest =>
      rw [writeAt_of_ne_nil image 0 (List.cons_ne_nil byte rest), List.take_zero, Nat.zero_sub,
        List.replicate_zero, List.append_nil, List.nil_append, Nat.zero_add]

/-- Writing shortens nothing. -/
theorem length_writeAt_le (image : Bytes) (offset : Nat) (data : Bytes) :
    image.length ≤ (writeAt image offset data).length := by
  by_contra shorter
  have last := getElem?_writeAt image offset data (writeAt image offset data).length
  rw [List.getElem?_eq_none (Nat.le_refl _)] at last
  split at last
  · rename_i inside
    rw [List.getElem?_eq_getElem (by omega)] at last
    cases last
  · rw [if_pos (by omega), List.getElem?_eq_getElem (by omega)] at last
    cases last

/-- A read returns what was just written there. -/
theorem readAt_writeAt_self (image : Bytes) (offset : Nat) (data : Bytes) :
    readAt (writeAt image offset data) offset data.length = some data := by
  refine readAt_eq_some_iff.mpr ⟨rfl, fun index below => ?_⟩
  rw [getElem?_writeAt, if_pos ⟨by omega, by omega⟩, Nat.add_sub_cancel_left]

/-- A successful read survives a write to a disjoint range. -/
theorem readAt_writeAt_of_disjoint {image window data : Bytes} {offset length at' : Nat}
    (found : readAt image offset length = some window)
    (disjoint : offset + length ≤ at' ∨ at' + data.length ≤ offset) :
    readAt (writeAt image at' data) offset length = some window := by
  obtain ⟨sized, same⟩ := readAt_eq_some_iff.mp found
  refine readAt_eq_some_iff.mpr ⟨sized, fun index below => ?_⟩
  have stored := same index below
  rw [List.getElem?_eq_getElem (by omega : index < window.length)] at stored
  have inImage := (List.getElem?_eq_some_iff.mp stored).1
  rw [getElem?_writeAt, if_neg (by omega), if_pos inImage, same index below]

/-! ## Recorded writes -/

/-- A list of recorded writes, oldest first. -/
abbrev Patch := List (Nat × Bytes)

/-- Applies the writes of a patch in order. -/
def replay (patch : Patch) (image : Bytes) : Bytes :=
  patch.foldl (fun current range => writeAt current range.1 range.2) image

/-- No ranges to replay. -/
@[simp] theorem replay_nil (image : Bytes) : replay [] image = image := rfl

/-- The first range, then the others. -/
@[simp] theorem replay_cons (range : Nat × Bytes) (patch : Patch) (image : Bytes) :
    replay (range :: patch) image = replay patch (writeAt image range.1 range.2) := rfl

/-- One patch after another. -/
theorem replay_append (first second : Patch) (image : Bytes) :
    replay (first ++ second) image = replay second (replay first image) :=
  List.foldl_append ..

/-- The byte the last write of a patch over a position leaves there. -/
def overlay : Patch → Nat → Option UInt8
  | [], _ => none
  | (offset, data) :: rest, index =>
      (overlay rest index).or
        (if offset ≤ index ∧ index < offset + data.length then data[index - offset]? else none)

/-- The length an image must have once the patch is applied. -/
def reach : Patch → Nat
  | [] => 0
  | (offset, data) :: rest => max (if data = [] then 0 else offset + data.length) (reach rest)

/-- The byte at a position after a replay. -/
theorem getElem?_replay (patch : Patch) (image : Bytes) (index : Nat) :
    (replay patch image)[index]? = (overlay patch index).or
      (if index < image.length then image[index]?
        else if index < reach patch then some 0 else none) := by
  induction patch generalizing image with
  | nil =>
      simp only [replay_nil, overlay, reach, Nat.not_lt_zero, ↓reduceIte, Option.none_or]
      split
      · rfl
      · rw [List.getElem?_eq_none (by omega)]
  | cons range rest ih =>
      obtain ⟨offset, data⟩ := range
      rw [replay_cons, ih, overlay, Option.or_assoc]
      congr 1
      have written := getElem?_writeAt image offset data index
      by_cases inside : offset ≤ index ∧ index < offset + data.length
      · rw [if_pos inside] at written
        have stored : index < (writeAt image offset data).length := by
          rw [List.getElem?_eq_getElem (by omega : index - offset < data.length)] at written
          exact (List.getElem?_eq_some_iff.mp written).1
        rw [if_pos stored, written, if_pos inside,
          List.getElem?_eq_getElem (by omega : index - offset < data.length), Option.some_or]
      · rw [if_neg inside] at written
        rw [if_neg inside, Option.none_or]
        by_cases old : index < image.length
        · rw [if_pos old] at written ⊢
          rw [List.getElem?_eq_getElem old] at written ⊢
          rw [if_pos (List.getElem?_eq_some_iff.mp written).1, written]
        · rw [if_neg old] at written ⊢
          by_cases nonempty : data = []
          · subst nonempty
            rw [writeAt_nil, if_neg old]
            simp only [reach, ↓reduceIte, Nat.zero_max]
          · simp only [reach, nonempty, ↓reduceIte, not_false_eq_true, and_true, ne_eq] at written ⊢
            by_cases gap : index < offset
            · rw [if_pos gap] at written
              rw [if_pos (List.getElem?_eq_some_iff.mp written).1, written, if_pos (by omega)]
            · rw [if_neg gap, List.getElem?_eq_none_iff] at written
              rw [if_neg (by omega)]
              have past : ¬ index < offset + data.length := by omega
              congr 1
              exact propext ⟨fun below => by omega, fun below => by omega⟩

/-- A patch makes the image as long as it reaches. -/
private theorem length_replay_ge_reach (patch : Patch) (image : Bytes) (index : Nat)
    (below : index < reach patch) : index < (replay patch image).length := by
  have stored := getElem?_replay patch image index
  by_contra outside
  rw [List.getElem?_eq_none (by omega)] at stored
  cases covered : overlay patch index with
  | some byte => rw [covered, Option.some_or] at stored; cases stored
  | none =>
      rw [covered, Option.none_or] at stored
      split at stored
      · rename_i old
        rw [List.getElem?_eq_getElem old] at stored
        cases stored
      · cases stored

/-- A patch applied to a longer image leaves a longer image. -/
theorem length_replay_mono (patch : Patch) {image other : Bytes}
    (longer : image.length ≤ other.length) :
    (replay patch image).length ≤ (replay patch other).length := by
  by_contra shorter
  have last := getElem?_replay patch image (replay patch other).length
  have missing := getElem?_replay patch other (replay patch other).length
  rw [List.getElem?_eq_getElem (by omega)] at last
  rw [List.getElem?_eq_none (Nat.le_refl _)] at missing
  cases covered : overlay patch (replay patch other).length with
  | some byte => rw [covered, Option.some_or] at missing; cases missing
  | none =>
      rw [covered, Option.none_or] at last missing
      split at missing
      · rename_i inside
        rw [List.getElem?_eq_getElem inside] at missing
        cases missing
      · split at missing
        · cases missing
        · rename_i outside beyond
          rw [if_neg (by omega), if_neg beyond] at last
          cases last

/-- Replaying shortens nothing. -/
theorem length_replay_le (patch : Patch) (image : Bytes) :
    image.length ≤ (replay patch image).length := by
  induction patch generalizing image with
  | nil => exact Nat.le_refl _
  | cons range rest ih => exact (length_writeAt_le image range.1 range.2).trans (ih _)

/-- Replaying a patch onto its own result changes nothing. -/
theorem replay_replay (patch : Patch) (image : Bytes) :
    replay patch (replay patch image) = replay patch image := by
  apply List.ext_getElem?
  intro index
  rw [getElem?_replay patch (replay patch image)]
  cases covered : overlay patch index with
  | some byte => rw [getElem?_replay, covered, Option.some_or, Option.some_or]
  | none =>
      rw [Option.none_or]
      split
      · rfl
      · rename_i outside
        have beyond : ¬ index < reach patch := fun below =>
          outside (length_replay_ge_reach patch image index below)
        rw [if_neg beyond, List.getElem?_eq_none (by omega)]

/-- Going back to an already applied piece and replaying everything from there
gives the same image as replaying forward. -/
theorem replay_again (older later : Patch) (image : Bytes) :
    replay (older ++ later) (replay older image) = replay (older ++ later) image := by
  rw [replay_append, replay_append, replay_replay]

/-- A range that a patch writes whole reads the same whatever image the patch is
applied to. -/
theorem readAt_replay_of_written {before after : Patch} {offset : Nat} {data : Bytes}
    (image other : Bytes) :
    readAt (replay (before ++ (offset, data) :: after) image) offset data.length =
      readAt (replay (before ++ (offset, data) :: after) other) offset data.length := by
  have determined : ∀ start : Bytes, ∀ index < data.length,
      (replay (before ++ (offset, data) :: after) start)[offset + index]? =
        (overlay after (offset + index)).or data[index]? := by
    intro start index below
    have covered : ∀ patch : Patch, overlay (patch ++ (offset, data) :: after) (offset + index) =
        (overlay after (offset + index)).or data[index]? := by
      intro patch
      induction patch with
      | nil =>
          rw [List.nil_append, overlay, if_pos ⟨by omega, by omega⟩, Nat.add_sub_cancel_left]
      | cons range rest ih =>
          rw [List.cons_append, overlay, ih, List.getElem?_eq_getElem below]
          cases overlay after (offset + index) <;> rfl
    rw [getElem?_replay, covered before, List.getElem?_eq_getElem below]
    cases overlay after (offset + index) <;> rfl
  unfold readAt
  have same : ((replay (before ++ (offset, data) :: after) image).drop offset).take data.length =
      ((replay (before ++ (offset, data) :: after) other).drop offset).take data.length := by
    apply List.ext_getElem?
    intro index
    by_cases below : index < data.length
    · rw [List.getElem?_take_of_lt below, List.getElem?_take_of_lt below, List.getElem?_drop,
        List.getElem?_drop, determined image index below, determined other index below]
    · rw [List.getElem?_eq_none (by rw [List.length_take]; omega),
        List.getElem?_eq_none (by rw [List.length_take]; omega)]
  simp only [same]

end ReVault.Foundation
