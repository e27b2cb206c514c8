import ReVault.Runs.Refinement
import ReVault.Sync.Patch

/-!
# Replicas

A replica that applies the drained pieces of a handle's change log in order ends with
the container, header and bitmap of the handle. It may also go back to a piece that it has
already applied: the container between two pieces is then a mixture of two states, but
each piece ends with a whole header, so the mixture can be loaded.
-/

namespace ReVault

open Foundation Primitives

/-- A replica shows the container, header and bitmap of a handle. -/
structure Mirrors (replica v : Vault) : Prop where
  file : replica.file = v.file
  header : replica.header = v.header
  allocator : replica.allocator = v.allocator

/-- The ranges of some pieces, oldest first, as one patch. -/
def joined (pieces : List Piece) : Patch := Piece.patch pieces.flatten

/-- Pieces after pieces. -/
theorem joined_append (first second : List Piece) :
    joined (first ++ second) = joined first ++ joined second := by
  unfold joined
  rw [List.flatten_append, Piece.patch_append]

/-- One more piece. -/
theorem joined_concat (pieces : List Piece) (piece : Piece) :
    joined (pieces ++ [piece]) = joined pieces ++ piece.patch := by
  rw [joined_append]
  unfold joined
  rw [List.flatten_singleton]

/-- A piece without ranges, or with a whole header as its last one. -/
def Piece.Whole (piece : Piece) : Prop := piece = [] ∨ piece.EndsWithHeader

namespace Piece.Whole

/-- Whole pieces after each other. -/
theorem append {first second : Piece} (head : first.Whole) (tail : second.Whole) :
    Whole (first ++ second) := by
  rcases tail with rfl | ends
  · rw [List.append_nil]
    exact head
  · exact Or.inr (ends.append first)

/-- So are many. -/
theorem flatten {pieces : List Piece} (whole : ∀ piece ∈ pieces, piece.Whole) :
    Whole pieces.flatten := by
  induction pieces with
  | nil => exact Or.inl rfl
  | cons piece rest ih =>
      rw [List.flatten_cons]
      exact (whole piece List.mem_cons_self).append
        (ih fun later member => whole later (List.mem_cons_of_mem piece member))

end Piece.Whole

section

variable [Primitives]

/-- The header and the bitmap of a container can be loaded. -/
def Loads (file : Bytes) : Prop :=
  ∃ header allocator, readHeader file = .ok header ∧ readAllocator file header = .ok allocator

/-- The header depends on the first bytes only. -/
theorem readHeader_congr {file file' : Bytes}
    (same : readAt file 0 headerSize = readAt file' 0 headerSize) :
    readHeader file = readHeader file' := by
  have exact' : readExact file 0 headerSize = readExact file' 0 headerSize := by
    unfold readExact
    rw [show (0 : UInt64).toNat = 0 from rfl, same]
  unfold readHeader
  rw [exact']

omit [Primitives] in
/-- The bitmap can be read from a longer file. -/
theorem exists_readAllocator_of_longer {file file' : Bytes} {header : Header}
    {allocator : BlockAllocator} (read : readAllocator file header = .ok allocator)
    (longer : file.length ≤ file'.length) :
    ∃ allocator', readAllocator file' header = .ok allocator' := by
  unfold readAllocator at read ⊢
  split at read
  · cases read
  · rename_i small
    obtain ⟨buf, found, _⟩ := except_bind_eq_ok_iff.mp read
    unfold readExact at found
    split at found
    · cases found
    · rename_i reachable
      split at found
      · rename_i window inImage
        obtain ⟨window', inImage'⟩ := exists_readAt_of_longer inImage longer
        have found' : readExact file' header.bitmapOffset header.bitmapLen.toNat =
            .ok window' := by
          unfold readExact
          rw [if_neg reachable, inImage']
        rw [if_neg small, except_bind_of_ok found']
        exact ⟨_, rfl⟩
      · cases found

/-- What a patch that ends with a whole header makes of a container, it makes of a longer
one: a container that can be loaded. -/
theorem Loads.of_longer {piece : Piece} {file file' : Bytes} (ends : piece.EndsWithHeader)
    (longer : file.length ≤ file'.length) (loads : Loads (replay piece.patch file)) :
    Loads (replay piece.patch file') := by
  obtain ⟨header, allocator, readHeader', readAllocator'⟩ := loads
  have sameHeader : readAt (replay piece.patch file) 0 headerSize =
      readAt (replay piece.patch file') 0 headerSize := by
    obtain ⟨before, encoded, rfl, size⟩ := ends
    rw [Piece.patch_append, ← size]
    exact readAt_replay_of_written file file'
  obtain ⟨allocator', read⟩ :=
    exists_readAllocator_of_longer readAllocator' (length_replay_mono piece.patch longer)
  exact ⟨header, allocator', (readHeader_congr sameHeader).symm.trans readHeader', read⟩

namespace Vault

/-! ## Applying pieces -/

/-- Applies pieces in order. -/
def applyPieces (pieces : List Piece) : VaultM Unit := pieces.forM applyRemotePatch

/-- A handle whose header and bitmap are those of its container. -/
structure Loaded (v : Vault) : Prop where
  header : readHeader v.file = .ok v.header
  allocator : readAllocator v.file v.header = .ok v.allocator

/-- A loaded handle has a container that loads. -/
theorem Loaded.loads {v : Vault} (loaded : v.Loaded) : Loads v.file :=
  ⟨_, _, loaded.header, loaded.allocator⟩

/-- Loading one container gives one header and one bitmap. -/
theorem Loaded.mirrors {replica v : Vault} (loaded : replica.Loaded) (loaded' : v.Loaded)
    (same : replica.file = v.file) : Mirrors replica v := by
  have header : replica.header = v.header := by
    have read := loaded.header
    rw [same, loaded'.header] at read
    exact (Except.ok.inj read).symm
  refine ⟨same, header, ?_⟩
  have read := loaded.allocator
  rw [same, header, loaded'.allocator] at read
  exact (Except.ok.inj read).symm

/-- A patch is accepted whenever it can be written and its container loaded. -/
theorem applyRemotePatch_accepts_iff {ranges : Piece} {replica : Vault} :
    (∃ replica', applyRemotePatch ranges replica = .ok () replica') ↔
      ranges.Bounded ∧ Loads (patchedFile ranges replica.file) := by
  cases applyRemotePatch_cases ranges replica with
  | unwritten unbounded outcome =>
      simp only [outcome, reduceCtorEq, exists_false, false_iff, not_and]
      exact fun bounded => absurd bounded unbounded
  | unreadable bounded readsHeader outcome =>
      simp only [outcome, reduceCtorEq, exists_false, false_iff, not_and]
      rintro _ ⟨header, _, read, _⟩
      rw [readsHeader] at read
      cases read
  | unmapped bounded readsHeader readsBitmap outcome =>
      simp only [outcome, reduceCtorEq, exists_false, false_iff, not_and]
      rintro _ ⟨header, allocator, read, read'⟩
      rw [readsHeader] at read
      cases read
      rw [readsBitmap] at read'
      cases read'
  | accepted bounded readsHeader readsBitmap outcome =>
      exact ⟨fun _ => ⟨bounded, _, _, readsHeader, readsBitmap⟩, fun _ => ⟨_, outcome⟩⟩

/-- What an applied piece leaves behind. -/
theorem applied_eq {piece : Piece} (bounded : piece.Bounded) {replica replica' : Vault}
    (applied : applyRemotePatch piece replica = .ok () replica') :
    replica'.file = replay piece.patch replica.file ∧ replica'.Loaded := by
  cases applyRemotePatch_cases piece replica with
  | unwritten _ outcome => cases outcome.symm.trans applied
  | unreadable _ _ outcome => cases outcome.symm.trans applied
  | unmapped _ _ _ outcome => cases outcome.symm.trans applied
  | accepted _ readsHeader readsBitmap outcome =>
      cases outcome.symm.trans applied
      exact ⟨patchedFile_of_bounded bounded replica.file, readsHeader, readsBitmap⟩

/-- A piece is applied whenever the container it makes can be loaded. -/
theorem exists_applied {piece : Piece} (bounded : piece.Bounded) {replica : Vault}
    (loads : Loads (replay piece.patch replica.file)) :
    ∃ replica', applyRemotePatch piece replica = .ok () replica' ∧
      replica'.file = replay piece.patch replica.file ∧ replica'.Loaded := by
  rw [← patchedFile_of_bounded bounded] at loads
  obtain ⟨replica', applied⟩ := applyRemotePatch_accepts_iff.mpr ⟨bounded, loads⟩
  exact ⟨replica', applied, applied_eq bounded applied⟩

/-- A piece is refused when the container it makes cannot be loaded, but it has been
written by then. -/
theorem exists_refused {piece : Piece} (bounded : piece.Bounded) {replica : Vault}
    (unloadable : ¬ Loads (replay piece.patch replica.file)) :
    ∃ fault replica', applyRemotePatch piece replica = .error fault replica' ∧
      replica'.file = replay piece.patch replica.file := by
  have written := patchedFile_of_bounded bounded replica.file
  cases applyRemotePatch_cases piece replica with
  | unwritten unbounded _ => exact absurd bounded unbounded
  | unreadable _ _ outcome => exact ⟨_, _, outcome, written⟩
  | unmapped _ _ _ outcome => exact ⟨_, _, outcome, written⟩
  | accepted _ readsHeader readsBitmap _ =>
      rw [written] at readsHeader readsBitmap
      exact absurd ⟨_, _, readsHeader, readsBitmap⟩ unloadable

end Vault

/-! ## Shipments -/

/-- Pieces that can be applied in order from a container: every container on the way can
be loaded. -/
structure Shipment (base : Bytes) (pieces : List Piece) : Prop where
  bounded : ∀ piece ∈ pieces, piece.Bounded
  whole : ∀ piece ∈ pieces, piece.Whole
  loads : ∀ earlier, earlier <+: pieces → Loads (replay (joined earlier) base)

namespace Shipment

variable {base : Bytes} {pieces older more rest : List Piece}

/-- The beginning of a shipment is one. -/
theorem of_prefix (shipment : Shipment base pieces) (isPrefix : older <+: pieces) :
    Shipment base older where
  bounded := fun piece member => shipment.bounded piece (isPrefix.mem member)
  whole := fun piece member => shipment.whole piece (isPrefix.mem member)
  loads := fun earlier shorter => shipment.loads earlier (shorter.trans isPrefix)

/-- One more piece is shipped once the container it makes can be loaded. -/
theorem concat (shipment : Shipment base pieces) {piece : Piece} (bounded : piece.Bounded)
    (whole : piece.Whole) (loads : Loads (replay (joined (pieces ++ [piece])) base)) :
    Shipment base (pieces ++ [piece]) where
  bounded := fun other member => (List.mem_append.mp member).elim (shipment.bounded other)
    fun last => by
      rw [List.mem_singleton.mp last]
      exact bounded
  whole := fun other member => (List.mem_append.mp member).elim (shipment.whole other)
    fun last => by
      rw [List.mem_singleton.mp last]
      exact whole
  loads := fun earlier shorter => by
    rcases List.prefix_concat_iff.mp shorter with rfl | before
    · exact loads
    · exact shipment.loads earlier before

/-- Applying a shipment yields its last container, loaded. -/
theorem exists_applied (shipment : Shipment base pieces) {replica : Vault}
    (same : replica.file = base) :
    ∃ replica', Vault.applyPieces pieces replica = .ok () replica' ∧
      replica'.file = replay (joined pieces) base ∧ (pieces ≠ [] → replica'.Loaded) := by
  induction pieces using List.reverseRecOn with
  | nil => exact ⟨replica, rfl, same, fun nonempty => absurd rfl nonempty⟩
  | append_singleton earlier piece ih =>
      obtain ⟨middle, ran, file, _⟩ := ih (shipment.of_prefix (List.prefix_append _ _))
      have chained : replay (joined (earlier ++ [piece])) base =
          replay piece.patch middle.file := by
        rw [joined_concat, replay_append, file]
      have loads : Loads (replay piece.patch middle.file) := by
        rw [← chained]
        exact shipment.loads _ (List.prefix_refl _)
      obtain ⟨final, applied, file', loaded⟩ := Vault.exists_applied
        (shipment.bounded piece (List.mem_append_right _ (List.mem_singleton.mpr rfl))) loads
      refine ⟨final, ?_, file'.trans chained.symm, fun _ => loaded⟩
      have single : [piece].forM Vault.applyRemotePatch middle = .ok () final := by
        rw [forM_cons, bind_of_ok applied]
        rfl
      unfold Vault.applyPieces
      rw [forM_append]
      exact (bind_of_ok ran).trans single

/-- The pieces from an applied one on can be shipped again: the header of each container
on the way is that of the last piece that was applied again. -/
theorem again (shipment : Shipment base (older ++ rest)) (isPrefix : more <+: rest) :
    Shipment (replay (joined (older ++ more)) base) rest where
  bounded := fun piece member => shipment.bounded piece (List.mem_append_right _ member)
  whole := fun piece member => shipment.whole piece (List.mem_append_right _ member)
  loads := by
    intro earlier shorter
    have whole : Piece.Whole earlier.flatten := Piece.Whole.flatten fun piece member =>
      shipment.whole piece (List.mem_append_right _ (shorter.mem member))
    rcases whole with empty | ends
    · have loads := shipment.loads (older ++ more)
        ((List.prefix_append_right_inj older).mpr isPrefix)
      have nothing : joined earlier = [] := by
        unfold joined
        rw [empty]
        rfl
      rw [nothing]
      exact loads
    · have loads := shipment.loads (older ++ earlier)
        ((List.prefix_append_right_inj older).mpr shorter)
      rw [joined_append, replay_append] at loads
      refine Loads.of_longer ends ?_ loads
      rw [joined_append, replay_append]
      exact length_replay_le _ _

/-- **Catching up again.** A replica that has applied some pieces of a shipment, goes back
to one of them and applies everything from there ends with the last container. -/
theorem exists_caught_up (shipment : Shipment base (older ++ rest)) (isPrefix : more <+: rest)
    (nonempty : rest ≠ []) {replica : Vault} (same : replica.file = base) :
    ∃ replica', Vault.applyPieces (older ++ more ++ rest) replica = .ok () replica' ∧
      replica'.file = replay (joined (older ++ rest)) base ∧ replica'.Loaded := by
  obtain ⟨middle, ran, file, _⟩ :=
    (shipment.of_prefix ((List.prefix_append_right_inj older).mpr isPrefix)).exists_applied same
  obtain ⟨final, ran', file', loaded⟩ := (shipment.again isPrefix).exists_applied file
  refine ⟨final, ?_, ?_, loaded nonempty⟩
  · unfold Vault.applyPieces
    rw [forM_append]
    exact (bind_of_ok ran).trans ran'
  · obtain ⟨later, rfl⟩ := isPrefix
    calc final.file
        = replay (joined more ++ joined later)
            (replay (joined more) (replay (joined older) base)) := by
          rw [file', joined_append older more, replay_append, joined_append more]
      _ = replay (joined more ++ joined later) (replay (joined older) base) :=
          replay_again _ _ _
      _ = replay (joined (older ++ (more ++ later))) base := by
          rw [joined_append older, joined_append more, replay_append (joined older)]

end Shipment

/-! ## Publishing -/

/-- One step of a handle that publishes: a mutation, or the drain of its change log, whose
piece is shipped. -/
def Publishes (password : String) (trace : List Step) (state : Vault × List Piece) (step : Step)
    (next : Vault × List Piece) : Prop :=
  Takes password trace state.1 step next.1 ∧
    (step.op.mutates = true ∧ next.2 = state.2 ∨
      step.op = .takeChangeLog ∧ next.2 = state.2 ++ [state.1.takeChangeLog.1])

/-- The calls of a handle that publishes, with the pieces it has drained so far. -/
abbrev Publication (password : String) (trace : List Step) (v : Vault) :
    List Step → Vault × List Piece → Prop :=
  Runs (fun calls => Publishes password (trace ++ calls)) (v, [])

/-- The pieces drained so far can be shipped, and the change log holds what is missing. -/
structure Published (base : Bytes) (w : Vault) (pieces : List Piece) : Prop where
  shipment : Shipment base pieces
  replayed : w.file = replay (joined (pieces ++ [w.changeLog])) base
  bounded : Piece.Bounded w.changeLog
  whole : Piece.Whole w.changeLog

namespace Published

variable {base : Bytes} {w w' : Vault} {pieces : List Piece} {piece : Piece}

/-- Nothing has been published. -/
theorem start (loaded : w.Loaded) (drained : w.changeLog = []) : Published w.file w [] where
  shipment := ⟨fun _ member => absurd member List.not_mem_nil,
    fun _ member => absurd member List.not_mem_nil, fun earlier shorter => by
      rw [List.prefix_nil.mp shorter]
      exact loaded.loads⟩
  replayed := by
    rw [drained]
    rfl
  bounded := by
    rw [drained]
    exact fun _ member => absurd member List.not_mem_nil
  whole := Or.inl drained

/-- A mutation goes to the change log. -/
theorem mutate (published : Published base w pieces) (logged : Logged w w' piece)
    (whole : piece.Whole) : Published base w' pieces where
  shipment := published.shipment
  replayed := by
    rw [logged.replayed, published.replayed, logged.recorded, joined_concat, joined_concat,
      Piece.patch_append, ← List.append_assoc, replay_append _ piece.patch]
  bounded := by
    rw [logged.recorded]
    exact fun range member =>
      (List.mem_append.mp member).elim (published.bounded range) (logged.bounded range)
  whole := by
    rw [logged.recorded]
    exact published.whole.append whole

/-- With what the change log holds, everything is shipped. -/
theorem complete (published : Published base w pieces) (loaded : w.Loaded) :
    Shipment base (pieces ++ [w.changeLog]) := by
  refine published.shipment.concat published.bounded published.whole ?_
  rw [← published.replayed]
  exact loaded.loads

/-- A drain ships the change log. -/
theorem drain (published : Published base w pieces) (loaded : w.Loaded) :
    Published base w.takeChangeLog.2 (pieces ++ [w.takeChangeLog.1]) where
  shipment := published.complete loaded
  replayed := by
    rw [joined_concat]
    exact published.replayed.trans (congrArg (replay · base) (List.append_nil _).symm)
  bounded := fun _ member => absurd member List.not_mem_nil
  whole := Or.inl rfl

end Published

/-- A sound handle is loaded. -/
theorem Sound.loaded {v : Vault} {d : Disk} {files : Files} (sound : Sound v d files) :
    v.Loaded := ⟨sound.readHeader_eq, sound.readAllocator_eq⟩

namespace Run

variable [Lawful] {password : String} {origin v w : Vault} {trace calls : List Step}
  {pieces : List Piece} {name description : String} {capacityBytes : UInt64} {admin : Identity}
  {draws : Draws}

/-- What a publishing handle has drained and recorded accounts for its container. -/
theorem published
    (created : Vault.create name description capacityBytes password admin draws = .ok origin)
    (run : Run password origin trace v) (drained : v.changeLog = [])
    {state : Vault × List Piece} (publication : Publication password trace v calls state) :
    Run password origin (trace ++ calls) state.1 ∧ Published v.file state.1 state.2 := by
  induction publication with
  | nil =>
      obtain ⟨d, files, healthy⟩ := run.healthy created
      rw [List.append_nil]
      exact ⟨run, Published.start healthy.sound.loaded drained⟩
  | @snoc calls state next step _ taken ih =>
      obtain ⟨reached, published⟩ := ih
      obtain ⟨takes, kind⟩ := taken
      obtain ⟨d, files, healthy⟩ := reached.healthy created
      refine ⟨by rw [← List.append_assoc]; exact reached.snoc takes, ?_⟩
      rcases kind with ⟨mutates, kept⟩ | ⟨drains, shipped⟩
      · obtain ⟨piece, logged, whole⟩ := healthy.logs takes mutates
        rw [kept]
        exact published.mutate logged whole
      · have emptied : next.1 = state.1.takeChangeLog.2 := by
          unfold Takes at takes
          rw [drains] at takes
          exact takes.2
        rw [emptied, shipped]
        exact published.drain healthy.sound.loaded

/-- **Replay.** From a handle with an empty change log and a replica of its container,
the pieces drained between any calls and at the end give the replica the handle's
container, header and bitmap; so they do when the replica, having applied some, goes back
to an older one and applies it and all later ones. -/
theorem replays_exactly
    (created : Vault.create name description capacityBytes password admin draws = .ok origin)
    (run : Run password origin trace v) (drained : v.changeLog = []) {replica : Vault}
    (same : replica.file = v.file)
    (publication : Publication password trace v calls (w, pieces)) :
    (∃ replica', Vault.applyPieces (pieces ++ [w.takeChangeLog.1]) replica = .ok () replica' ∧
      Mirrors replica' w) ∧
    ∀ older piece newer later, pieces ++ [w.takeChangeLog.1] = older ++ piece :: newer ++ later →
      ∃ replica', Vault.applyPieces (older ++ piece :: newer ++ piece :: newer ++ later)
        replica = .ok () replica' ∧ Mirrors replica' w := by
  obtain ⟨reached, published⟩ := published created run drained publication
  obtain ⟨d, files, healthy⟩ := reached.healthy created
  have loaded := healthy.sound.loaded
  have shipment := published.complete loaded
  constructor
  · obtain ⟨replica', ran, file, loaded'⟩ := shipment.exists_applied same
    exact ⟨replica', ran, (loaded' (List.concat_ne_nil _ _)).mirrors loaded
      (file.trans published.replayed.symm)⟩
  · intro older piece newer later split
    have split' : pieces ++ [w.changeLog] = older ++ (piece :: newer ++ later) :=
      split.trans (List.append_assoc ..)
    rw [split'] at shipment
    obtain ⟨replica', ran, file, loaded'⟩ := shipment.exists_caught_up
      (List.prefix_append (piece :: newer) later) (List.cons_ne_nil _ _) same
    rw [← split', ← published.replayed] at file
    refine ⟨replica', ?_, loaded'.mirrors loaded file⟩
    rw [List.append_assoc _ (piece :: newer) later]
    exact ran

end Run

end

namespace Transparent

/-- A file is added and the change log drained. -/
def publishTrace : List Step :=
  [⟨.addFile "a" [1, 2, 3], draws 2, true⟩] ++ [⟨.takeChangeLog, draws 3, true⟩]

/-- Publishing the addition of a file is replayed. -/
theorem replays_exactly_added : ∃ origin v,
    Vault.create "v" "" 65536 "p" (identity 1) (draws 1) = .ok origin ∧
    Publication "p" [] origin publishTrace (v.takeChangeLog.2, [v.takeChangeLog.1]) ∧
    (∃ replica, Vault.applyPieces [v.takeChangeLog.1, []] origin = .ok () replica ∧
      Mirrors replica v) ∧
    ∃ replica, Vault.applyPieces [v.takeChangeLog.1, v.takeChangeLog.1, []] origin =
      .ok () replica ∧ Mirrors replica v := by
  obtain ⟨origin, v, created, _, run⟩ := exists_added
  have spec := Vault.create_spec created
  have publication : Publication "p" [] origin publishTrace
      (v.takeChangeLog.2, [v.takeChangeLog.1]) :=
    (Runs.snoc .nil ⟨run.single, Or.inl ⟨rfl, rfl⟩⟩ :
      Publication "p" [] origin ([] ++ [_]) (v, [])).snoc
      ⟨⟨rfl, rfl⟩, Or.inr ⟨rfl, rfl⟩⟩
  obtain ⟨⟨forward, ran, mirrors⟩, back⟩ :=
    Run.replays_exactly created .nil spec.changeLog rfl publication
  obtain ⟨again, ran', mirrors'⟩ := back [] v.takeChangeLog.1 [] [[]] rfl
  exact ⟨origin, v, created, publication,
    ⟨forward, ran, mirrors.file, mirrors.header, mirrors.allocator⟩,
    ⟨again, ran', mirrors'.file, mirrors'.header, mirrors'.allocator⟩⟩

end Transparent

end ReVault
