import Mathlib.Data.List.TakeWhile
import ReVault.Sync.Log

/-!
# Applying a patch

The ranges of a patch are written up to the first one that ends too far out. If all are, the
header and the bitmap of the container that has become of them are read and kept; what has
been written stays when one of them cannot be read.
-/

namespace ReVault

open Foundation Primitives

/-- The ranges of a patch that are written: up to the first one that ends too far out. -/
def writtenRanges (ranges : Piece) : Piece :=
  ranges.takeWhile fun range => range.1.toNat + range.2.length ≤ ioLimit

/-- Ranges within the limit are all written. -/
theorem writtenRanges_of_bounded {ranges : Piece} (bounded : ranges.Bounded) :
    writtenRanges ranges = ranges :=
  List.takeWhile_eq_self_iff.mpr fun range member => decide_eq_true (bounded range member)

/-- The container after the ranges have been written. -/
def patchedFile (ranges : Piece) (file : Bytes) : Bytes :=
  replay (Piece.patch (writtenRanges ranges)) file

/-- Then the patched file is the replayed one. -/
theorem patchedFile_of_bounded {ranges : Piece} (bounded : ranges.Bounded) (file : Bytes) :
    patchedFile ranges file = replay (Piece.patch ranges) file := by
  unfold patchedFile
  rw [writtenRanges_of_bounded bounded]

section

variable [Primitives]

namespace Vault

omit [Primitives] in
/-- Ranges within the limit are applied. -/
theorem applyRanges_eq {piece : Piece} (bounded : piece.Bounded) (replica : Vault) :
    piece.forM applyRange replica =
      .ok () { replica with file := replay piece.patch replica.file } := by
  induction piece generalizing replica with
  | nil => rfl
  | cons range rest ih =>
      have applied : applyRange range replica = .ok ()
          { replica with file := Foundation.writeAt replica.file range.1.toNat range.2 } := by
        have inside := bounded range List.mem_cons_self
        unfold applyRange
        rw [if_neg (by omega)]
        rfl
      rw [forM_cons, bind_of_ok applied]
      exact ih (fun later member => bounded later (List.mem_cons_of_mem range member)) _

omit [Primitives] in
/-- Ranges beyond it end in an error. -/
theorem applyRanges_unbounded {ranges : Piece} (unbounded : ¬ ranges.Bounded) (replica : Vault) :
    ranges.forM applyRange replica = .error (.error .io)
      { replica with file := patchedFile ranges replica.file } := by
  induction ranges generalizing replica with
  | nil => exact absurd (fun _ member => absurd member List.not_mem_nil) unbounded
  | cons range rest ih =>
      rw [forM_cons]
      by_cases inside : range.1.toNat + range.2.length ≤ ioLimit
      · have applied : applyRange range replica = .ok ()
            { replica with file := Foundation.writeAt replica.file range.1.toNat range.2 } := by
          unfold applyRange
          rw [if_neg (by omega)]
          rfl
        have later : ¬ Piece.Bounded rest := by
          intro bounded
          apply unbounded
          intro other member
          rcases List.mem_cons.mp member with rfl | member
          · exact inside
          · exact bounded other member
        have taken : patchedFile (range :: rest) replica.file = patchedFile rest
            (Foundation.writeAt replica.file range.1.toNat range.2) := by
          have kept : writtenRanges (range :: rest) = range :: writtenRanges rest := by
            simp [writtenRanges, inside]
          unfold patchedFile
          rw [kept]
          rfl
        rw [bind_of_ok applied, taken]
        exact ih later _
      · have refused : applyRange range replica = .error (.error .io) replica := by
          unfold applyRange
          rw [if_pos (by omega)]
          rfl
        have taken : patchedFile (range :: rest) replica.file = replica.file := by
          have none : writtenRanges (range :: rest) = [] := by
            simp only [writtenRanges, List.takeWhile_cons, inside, decide_false,
              Bool.false_eq_true, if_false]
          unfold patchedFile
          rw [none]
          rfl
        rw [taken]
        exact bind_of_error refused

/-- **What a patch does.** Its ranges are written; if all are, the header is read and kept, and
then the bitmap. -/
inductive Patched (ranges : Piece) (replica : Vault) : Prop
  | unwritten (unbounded : ¬ ranges.Bounded)
      (outcome : applyRemotePatch ranges replica = .error (.error .io)
        { replica with file := patchedFile ranges replica.file })
  | unreadable {fault : Fault} (bounded : ranges.Bounded)
      (readsHeader : readHeader (patchedFile ranges replica.file) = .error fault)
      (outcome : applyRemotePatch ranges replica = .error fault
        { replica with file := patchedFile ranges replica.file })
  | unmapped {fault : Fault} {header : Header} (bounded : ranges.Bounded)
      (readsHeader : readHeader (patchedFile ranges replica.file) = .ok header)
      (readsBitmap : readAllocator (patchedFile ranges replica.file) header = .error fault)
      (outcome : applyRemotePatch ranges replica = .error fault
        { replica with file := patchedFile ranges replica.file, header := header })
  | accepted {header : Header} {allocator : BlockAllocator} (bounded : ranges.Bounded)
      (readsHeader : readHeader (patchedFile ranges replica.file) = .ok header)
      (readsBitmap : readAllocator (patchedFile ranges replica.file) header = .ok allocator)
      (outcome : applyRemotePatch ranges replica = .ok ()
        { replica with file := patchedFile ranges replica.file, header := header,
                       allocator := allocator })

/-- What applying a patch comes to. -/
theorem applyRemotePatch_cases (ranges : Piece) (replica : Vault) : Patched ranges replica := by
  by_cases bounded : ranges.Bounded
  · let patched : Vault := { replica with file := patchedFile ranges replica.file }
    have written : ranges.forM applyRange replica = .ok () patched := by
      have all := applyRanges_eq bounded replica
      rwa [← patchedFile_of_bounded bounded] at all
    cases headerIs : readHeader (patchedFile ranges replica.file) with
    | error fault =>
        have first : observe (fun v : Vault => readHeader v.file) patched =
            .error fault patched := observe_of_error headerIs
        exact Patched.unreadable bounded headerIs
          ((bind_of_ok written).trans (bind_of_error first))
    | ok header =>
        let reloaded : Vault := { patched with header := header }
        have first : observe (fun v : Vault => readHeader v.file) patched = .ok header patched :=
          observe_of_ok headerIs
        have start : applyRemotePatch ranges replica = (observe (fun v : Vault =>
            readAllocator v.file v.header) >>= fun allocator =>
              modify fun v => { v with allocator := allocator }) reloaded :=
          (bind_of_ok written).trans ((bind_of_ok first).trans (bind_of_ok (modify_apply _ _)))
        cases allocatorIs : readAllocator (patchedFile ranges replica.file) header with
        | error fault =>
            have second : observe (fun v : Vault => readAllocator v.file v.header) reloaded =
                .error fault reloaded := observe_of_error allocatorIs
            exact Patched.unmapped bounded headerIs allocatorIs
              (start.trans (bind_of_error second))
        | ok allocator =>
            have second : observe (fun v : Vault => readAllocator v.file v.header) reloaded =
                .ok allocator reloaded := observe_of_ok allocatorIs
            exact Patched.accepted bounded headerIs allocatorIs
              (start.trans ((bind_of_ok second).trans (modify_apply _ _)))
  · exact Patched.unwritten bounded (bind_of_error (applyRanges_unbounded bounded replica))

/-- Whatever ranges a patch has, the handle keeps its content key. -/
theorem applyRemotePatch_key (piece : Piece) (replica : Vault) :
    (finalState (applyRemotePatch piece replica)).key = replica.key := by
  have refl : ∀ v : Vault, v.key = v.key := fun _ => rfl
  have trans : ∀ first second third : Vault, second.key = first.key → third.key = second.key →
      third.key = first.key := fun _ _ _ head tail => tail.trans head
  have range : ∀ range, Moves (fun v v' : Vault => v'.key = v.key) (applyRange range) := by
    intro range
    unfold applyRange
    split
    · exact Moves.throw refl _
    · exact fun v => rfl
  refine Moves.bind trans (Moves.forM refl trans piece fun item _ => range item)
    (fun _ => ?_) replica
  refine Moves.bind trans (Moves.observe refl _) fun header => ?_
  refine Moves.bind trans (fun v => rfl) fun _ => ?_
  exact Moves.bind trans (Moves.observe refl _) fun allocator v => rfl

end Vault

end

end ReVault
