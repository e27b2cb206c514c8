import Mathlib.Data.List.Forall2
import ReVault.Disk.Layout

/-!
# Recorded ranges

Every write of a handle is recorded, so the ranges recorded since a state, replayed on
the container of that state, give the present container. The operations write whole
regions: what a region holds after some of the ranges is what it held before when none of
them fills it, and what it holds in the end when none of the others does.
-/

namespace ReVault

open Foundation

/-- The ranges of a change log, as they are drained and shipped. -/
abbrev Piece := List (UInt64 × Bytes)

namespace Piece

/-- The writes of a piece on a byte image. -/
def patch (piece : Piece) : Patch := piece.map fun range => (range.1.toNat, range.2)

/-- The ranges of pieces, one after the other. -/
theorem patch_append (first second : Piece) :
    patch (first ++ second) = patch first ++ patch second := List.map_append

/-- The ranges end within the largest file offset. -/
def Bounded (piece : Piece) : Prop :=
  ∀ range ∈ piece, range.1.toNat + range.2.length ≤ ioLimit

/-- The last range is a whole header. -/
def EndsWithHeader (piece : Piece) : Prop :=
  ∃ before encoded, piece = before ++ [(0, encoded)] ∧ encoded.length = headerSize

/-- A piece may be preceded by others. -/
theorem EndsWithHeader.append (earlier : Piece) {piece : Piece} (ends : piece.EndsWithHeader) :
    EndsWithHeader (earlier ++ piece) := by
  obtain ⟨before, encoded, rfl, size⟩ := ends
  exact ⟨earlier ++ before, encoded, (List.append_assoc ..).symm, size⟩

end Piece

/-- Between two states a handle wrote and recorded these ranges and nothing else. -/
structure Logged (v v' : Vault) (piece : Piece) : Prop where
  recorded : v'.changeLog = v.changeLog ++ piece
  replayed : v'.file = replay piece.patch v.file
  bounded : piece.Bounded

/-- A handle recorded what it wrote. -/
def Logs (v v' : Vault) : Prop := ∃ piece, Logged v v' piece

namespace Logged

variable {v v' v'' : Vault} {piece first second : Piece}

/-- Nothing is written. -/
theorem nothing (file : v'.file = v.file) (changeLog : v'.changeLog = v.changeLog) :
    Logged v v' [] where
  recorded := changeLog.trans (List.append_nil _).symm
  replayed := file
  bounded := fun _ member => absurd member List.not_mem_nil

/-- One after the other. -/
theorem trans (head : Logged v v' first) (tail : Logged v' v'' second) :
    Logged v v'' (first ++ second) where
  recorded := by rw [tail.recorded, head.recorded, List.append_assoc]
  replayed := by rw [tail.replayed, head.replayed, Piece.patch_append, replay_append]
  bounded := fun range member =>
    (List.mem_append.mp member).elim (head.bounded range) (tail.bounded range)

/-- A write is logged. -/
theorem written (v : Vault) {offset : UInt64} {data : Bytes}
    (inside : offset.toNat + data.length ≤ ioLimit) :
    Logged v (v.written offset data) [(offset, data)] where
  recorded := rfl
  replayed := rfl
  bounded := fun range member => by
    rw [List.mem_singleton.mp member]
    exact inside

end Logged

namespace Logs

/-- Nothing is logged. -/
theorem refl (v : Vault) : Logs v v := ⟨[], Logged.nothing rfl rfl⟩

/-- One log after the other. -/
theorem trans (v v' v'' : Vault) (head : Logs v v') (tail : Logs v' v'') : Logs v v'' := by
  obtain ⟨first, head⟩ := head
  obtain ⟨second, tail⟩ := tail
  exact ⟨first ++ second, head.trans tail⟩

end Logs

/-! ## Ranges that fill regions -/

/-- A range that fills a region. -/
structure Fills (h : Header) (region : Region) (range : UInt64 × Bytes) : Prop where
  valid : region.Valid h
  start : range.1.toNat = (region.extent h).start
  size : range.2.length = (region.extent h).size

/-- Between two states a handle filled these regions in turn and recorded each. -/
def Wrote (h : Header) (v v' : Vault) (regions : List Region) : Prop :=
  ∃ piece, Logged v v' piece ∧ List.Forall₂ (Fills h) regions piece

namespace Fills

variable {h : Header} {region : Region} {range : UInt64 × Bytes} (fill : Fills h region range)
  {file : Bytes}

include fill

/-- A region that is filled holds the bytes of the range. -/
theorem cell_self :
    cell (writeAt file range.1.toNat range.2) (region.extent h) = some range.2 := by
  rw [fill.start]
  exact cell_writeAt_self fill.size

/-- A region keeps what it holds when another is filled. -/
theorem cell_of_ne (layout : Layout h) (other : Region) (valid : other.Valid h)
    (different : other ≠ region) {content : Bytes}
    (found : cell file (other.extent h) = some content) :
    cell (writeAt file range.1.toNat range.2) (other.extent h) = some content := by
  rw [fill.start]
  exact cell_writeAt_of_apart found fill.size (layout.apart valid fill.valid different)

end Fills

/-- Every range of a piece fills one of its regions. -/
theorem exists_filled {h : Header} {regions : List Region} {piece : Piece}
    (fills : List.Forall₂ (Fills h) regions piece) {range : UInt64 × Bytes}
    (member : range ∈ piece) : ∃ region ∈ regions, Fills h region range := by
  induction fills with
  | nil => cases member
  | @cons region head regions piece fill _ ih =>
      rcases List.mem_cons.mp member with rfl | later
      · exact ⟨region, List.mem_cons_self, fill⟩
      · obtain ⟨other, inRegions, fill⟩ := ih later
        exact ⟨other, List.mem_cons_of_mem region inRegions, fill⟩

section Cells

variable {h : Header} {regions : List Region} {piece : Piece} {region : Region} {file : Bytes}

/-- A region that no range fills keeps what it holds. -/
theorem cell_replay_of_notMem (layout : Layout h) (fills : List.Forall₂ (Fills h) regions piece)
    (valid : region.Valid h) (outside : region ∉ regions) {content : Bytes}
    (found : cell file (region.extent h) = some content) :
    cell (replay piece.patch file) (region.extent h) = some content := by
  induction fills generalizing file with
  | nil => exact found
  | @cons other range regions piece fill _ ih =>
      obtain ⟨different, later⟩ := not_or.mp (List.mem_cons.not.mp outside)
      exact ih later (fill.cell_of_ne layout region valid different found)

/-- A region that holds something still does after a replay. -/
theorem exists_cell_replay {content : Bytes} {extent : Extent}
    (found : cell file extent = some content) (patch : Patch) :
    ∃ content', cell (replay patch file) extent = some content' :=
  exists_readAt_of_longer found (length_replay_le patch file)

/-- After the first ranges, a region that none of them fills holds what it held before. -/
theorem cell_take_of_notMem (layout : Layout h) (fills : List.Forall₂ (Fills h) regions piece)
    (valid : region.Valid h) {count : Nat} (outside : region ∉ regions.take count)
    {content : Bytes} (found : cell file (region.extent h) = some content) :
    cell (replay (Piece.patch (piece.take count)) file) (region.extent h) = some content :=
  cell_replay_of_notMem layout (List.forall₂_take count fills) valid outside found

/-- A region that some range fills holds something in the end. -/
theorem exists_cell_of_mem (fills : List.Forall₂ (Fills h) regions piece)
    (member : region ∈ regions) :
    ∃ content, cell (replay piece.patch file) (region.extent h) = some content := by
  induction fills generalizing file with
  | nil => cases member
  | @cons head range regions piece fill _ ih =>
      rcases List.mem_cons.mp member with rfl | later
      · exact exists_cell_replay fill.cell_self (Piece.patch piece)
      · exact ih later

/-- After the first ranges, a region that none of the others fills holds what it holds in
the end. -/
theorem cell_take_of_notMem_drop (layout : Layout h)
    (fills : List.Forall₂ (Fills h) regions piece) (valid : region.Valid h) {count : Nat}
    (outside : region ∉ regions.drop count)
    (held : region ∈ regions ∨ ∃ old, cell file (region.extent h) = some old) {content : Bytes}
    (found : cell (replay piece.patch file) (region.extent h) = some content) :
    cell (replay (Piece.patch (piece.take count)) file) (region.extent h) = some content := by
  obtain ⟨middle, now⟩ : ∃ middle, cell (replay (Piece.patch (piece.take count)) file)
      (region.extent h) = some middle := by
    rcases held with member | ⟨old, before⟩
    · rw [← List.take_append_drop count regions, List.mem_append] at member
      exact exists_cell_of_mem (List.forall₂_take count fills) (member.resolve_right outside)
    · exact exists_cell_replay before _
  have ended := cell_replay_of_notMem layout (List.forall₂_drop count fills) valid outside now
  rw [← replay_append, ← Piece.patch_append, List.take_append_drop, found] at ended
  rw [now, ended]

end Cells

namespace Wrote

variable {h : Header} {v v' v'' : Vault} {regions first second : List Region}

/-- Nothing is written. -/
theorem nothing (file : v'.file = v.file) (changeLog : v'.changeLog = v.changeLog) :
    Wrote h v v' [] := ⟨[], Logged.nothing file changeLog, List.Forall₂.nil⟩

/-- One after the other. -/
theorem trans (head : Wrote h v v' first) (tail : Wrote h v' v'' second) :
    Wrote h v v'' (first ++ second) := by
  obtain ⟨piece, logged, fills⟩ := head
  obtain ⟨piece', logged', fills'⟩ := tail
  exact ⟨piece ++ piece', logged.trans logged', List.rel_append fills fills'⟩

/-- What was written depends on a header only through its shape. -/
theorem of_sameShape (wrote : Wrote h v v' regions) {h' : Header} (same : SameShape h h') :
    Wrote h' v v' regions := by
  obtain ⟨piece, logged, fills⟩ := wrote
  refine ⟨piece, logged, fills.imp fun region range fill => ⟨?_, ?_, ?_⟩⟩
  · exact (same.valid_iff region).mpr fill.valid
  · rw [same.extent_eq]
    exact fill.start
  · rw [same.extent_eq]
    exact fill.size

/-- A change of anything but the file and the log writes nothing. -/
theorem of_same (wrote : Wrote h v v' regions) (file : v''.file = v'.file)
    (changeLog : v''.changeLog = v'.changeLog) : Wrote h v v'' regions := by
  have unchanged := wrote.trans (nothing (h := h) file changeLog)
  rwa [List.append_nil] at unchanged

/-- A region that was not written keeps what it holds. -/
theorem cell_eq (wrote : Wrote h v v' regions) (layout : Layout h) {region : Region}
    (valid : region.Valid h) (outside : region ∉ regions) {content : Bytes}
    (found : cell v.file (region.extent h) = some content) :
    cell v'.file (region.extent h) = some content := by
  obtain ⟨piece, logged, fills⟩ := wrote
  rw [logged.replayed]
  exact cell_replay_of_notMem layout fills valid outside found

end Wrote

/-- Between two states a handle filled regions of one kind only, and recorded them. -/
def WroteOnly (h : Header) (allowed : Region → Prop) (v v' : Vault) : Prop :=
  ∃ regions, Wrote h v v' regions ∧ ∀ region ∈ regions, allowed region

namespace WroteOnly

variable {h : Header} {allowed : Region → Prop} {v v' v'' : Vault}

/-- Nothing is written. -/
theorem nothing (file : v'.file = v.file) (changeLog : v'.changeLog = v.changeLog) :
    WroteOnly h allowed v v' :=
  ⟨[], Wrote.nothing file changeLog, fun _ member => absurd member List.not_mem_nil⟩

/-- One after the other. -/
theorem trans (head : WroteOnly h allowed v v') (tail : WroteOnly h allowed v' v'') :
    WroteOnly h allowed v v'' := by
  obtain ⟨first, wrote, inFirst⟩ := head
  obtain ⟨second, wrote', inSecond⟩ := tail
  exact ⟨first ++ second, wrote.trans wrote', fun region member =>
    (List.mem_append.mp member).elim (inFirst region) (inSecond region)⟩

end WroteOnly

end ReVault
