import ReVault.Integrity.Chain

/-!
# The past containers of a run

The containers that a run has shown, each with the number of records written by then. As
long as sequence numbers have not wrapped, a container shows this number in its header,
so containers of different numbers differ.
-/

namespace ReVault

open Foundation Primitives

section

variable [Primitives]

/-- A step leads to one vault. -/
theorem Takes.unique {password : String} {trace : List Step} {v v' v'' : Vault} {step : Step}
    (taken : Takes password trace v step v') (taken' : Takes password trace v step v'') :
    v' = v'' := by
  unfold Takes at taken taken'
  split at taken <;> simp_all

/-- A trace leads to one vault. -/
theorem Run.unique {password : String} {origin v v' : Vault} {trace : List Step}
    (run : Run password origin trace v) (run' : Run password origin trace v') : v = v' := by
  have determined : ∀ trace v step v' v'', Takes password trace v step v' →
      Takes password trace v step v'' → v' = v'' :=
    fun _ _ _ _ _ taken taken' => taken.unique taken'
  exact Runs.unique determined run run'

/-- The operation of an accepted last step succeeded. -/
theorem Run.exec_eq {password : String} {origin v v' : Vault} {trace : List Step} {op : Op}
    {draws : Draws} (run : Run password origin trace v)
    (next : Run password origin (trace ++ [⟨op, draws, true⟩]) v') :
    op.exec (passwordAfter password trace) draws v = .ok () v' := by
  obtain ⟨before, earlier, taken⟩ := next.exists_last
  rw [Run.unique earlier run] at taken
  unfold Takes at taken
  split at taken
  · rename_i ran
    rw [ran, taken.2]
  · cases taken.1

/-- A container that a run showed when so many records had been written. -/
def Past (password : String) (origin : Vault) (trace : List Step) (count : Nat)
    (file : Bytes) : Prop :=
  ∃ earlier v, earlier <+: trace ∧ Run password origin earlier v ∧
    recordsAfter earlier = count ∧ v.file = file

/-- A container that a run showed at a position of the chain. -/
def ShownAt (password : String) (origin : Vault) (trace : List Step) (nextSeq : UInt64)
    (file : Bytes) : Prop :=
  ∃ earlier v, earlier <+: trace ∧ Run password origin earlier v ∧
    v.chainState.1 = nextSeq ∧ v.file = file

namespace Past

variable {password : String} {origin v v' : Vault} {trace : List Step} {step : Step}
  {count : Nat} {file : Bytes}

/-- The container of now. -/
theorem now (run : Run password origin trace v) :
    Past password origin trace (recordsAfter trace) v.file :=
  ⟨trace, v, List.prefix_refl _, run, rfl, rfl⟩

/-- A past container has no more records. -/
theorem le (past : Past password origin trace count file) : count ≤ recordsAfter trace := by
  obtain ⟨earlier, _, isPrefix, _, rfl, _⟩ := past
  exact recordsAfter_isPrefix isPrefix

/-- It stays past when the run goes on. -/
theorem longer {trace' : List Step} (past : Past password origin trace count file)
    (isPrefix : trace <+: trace') : Past password origin trace' count file := by
  obtain ⟨earlier, w, before, rest⟩ := past
  exact ⟨earlier, w, before.trans isPrefix, rest⟩

/-- A step adds the container that it leads to. -/
theorem concat_cases (run : Run password origin (trace ++ [step]) v')
    (past : Past password origin (trace ++ [step]) count file) :
    Past password origin trace count file ∨
      count = recordsAfter (trace ++ [step]) ∧ file = v'.file := by
  obtain ⟨earlier, w, isPrefix, reached, counted, shown⟩ := past
  rcases List.prefix_concat_iff.mp isPrefix with rfl | shorter
  · rw [reached.unique run] at shown
    exact Or.inr ⟨counted.symm, shown.symm⟩
  · exact Or.inl ⟨earlier, w, shorter, reached, counted, shown⟩

end Past

namespace Run

variable [Lawful] {password : String} {origin v v' : Vault} {trace : List Step} {step : Step}
  {name description : String} {capacityBytes : UInt64} {admin : Identity} {draws : Draws}
  {count : Nat} {file : Bytes}

/-- A refused step changes nothing. -/
theorem refused_eq
    (created : Vault.create name description capacityBytes password admin draws = .ok origin)
    (run : Run password origin trace v) (taken : Takes password trace v step v')
    (refused : step.accepted = false) : v' = v := by
  obtain ⟨d, files, healthy⟩ := run.healthy created
  rcases healthy.step_cases taken with ⟨_, same⟩ | ⟨accepted, _⟩
  · exact same
  · rw [refused] at accepted
    cases accepted

/-- Only an accepted mutation changes the container. -/
theorem container_eq
    (created : Vault.create name description capacityBytes password admin draws = .ok origin)
    (run : Run password origin trace v) (taken : Takes password trace v step v')
    (keeps : ¬ step.Changes) : v'.file = v.file ∧ v'.header = v.header := by
  obtain ⟨d, files, healthy⟩ := run.healthy created
  rcases healthy.step_cases taken with ⟨_, rfl⟩ | ⟨accepted, _, _, took⟩
  · exact ⟨rfl, rfl⟩
  · cases mutates : step.op.mutates with
    | true => exact absurd ⟨accepted, mutates⟩ keeps
    | false =>
        obtain ⟨sameFile, sameHeader, _⟩ := took.container mutates
        exact ⟨sameFile, sameHeader⟩

/-- The containers shown with the present number of records are the present one. -/
theorem past_now
    (created : Vault.create name description capacityBytes password admin draws = .ok origin)
    (run : Run password origin trace v)
    (past : Past password origin trace (recordsAfter trace) file) : file = v.file := by
  induction run with
  | nil =>
      obtain ⟨earlier, w, isPrefix, reached, _, rfl⟩ := past
      rw [List.prefix_nil.mp isPrefix] at reached
      rw [reached.eq_start]
  | @snoc trace v v' step run taken ih =>
      rcases past.concat_cases (run.snoc taken) with old | ⟨_, rfl⟩
      · by_cases changes : step.Changes
        · have bound := old.le
          rw [recordsAfter_concat, if_pos changes] at bound
          omega
        · rw [recordsAfter_concat, if_neg changes] at old
          rw [ih old, (container_eq created run taken changes).1]
      · rfl

/-- The header of a reachable vault shows how many records have been written, in 64 bits. -/
theorem chainNextSeq_ofNat
    (created : Vault.create name description capacityBytes password admin draws = .ok origin)
    (run : Run password origin trace v) :
    v.header.chainNextSeq = UInt64.ofNat (recordsAfter trace) := by
  obtain ⟨d, files, history, healthy, ring, length⟩ := run.ring created
  rw [ring.next, length]

/-- The next sequence number is the number of records, until it wraps. -/
theorem chainNextSeq_eq
    (created : Vault.create name description capacityBytes password admin draws = .ok origin)
    (run : Run password origin trace v) (short : recordsAfter trace < 2 ^ 64) :
    v.header.chainNextSeq.toNat = recordsAfter trace := by
  rw [run.chainNextSeq_ofNat created, UInt64.toNat_ofNat', Nat.mod_eq_of_lt short]

/-- Equal containers show equal headers. -/
theorem header_eq_of_file {w : Vault} {trace' : List Step}
    (created : Vault.create name description capacityBytes password admin draws = .ok origin)
    (run : Run password origin trace v) (run' : Run password origin trace' w)
    (same : v.file = w.file) : v.header = w.header := by
  obtain ⟨d, files, healthy⟩ := run.healthy created
  obtain ⟨d', files', healthy'⟩ := run'.healthy created
  have read := healthy.sound.readHeader_eq
  rw [same, healthy'.sound.readHeader_eq] at read
  exact (Except.ok.inj read).symm

/-- A container shows in its header how many records had been written. -/
theorem readHeader_past
    (created : Vault.create name description capacityBytes password admin draws = .ok origin)
    (past : Past password origin trace count file) (short : count < 2 ^ 64) :
    ∃ h, readHeader file = .ok h ∧ h.chainNextSeq.toNat = count := by
  obtain ⟨earlier, w, _, reached, rfl, rfl⟩ := past
  obtain ⟨d, files, healthy⟩ := reached.healthy created
  refine ⟨w.header, healthy.sound.readHeader_eq, ?_⟩
  rw [reached.chainNextSeq_ofNat created, UInt64.toNat_ofNat', Nat.mod_eq_of_lt short]

/-- Containers of different numbers of records differ. -/
theorem count_eq_of_past {count' : Nat}
    (created : Vault.create name description capacityBytes password admin draws = .ok origin)
    (past : Past password origin trace count file)
    (past' : Past password origin trace count' file)
    (short : recordsAfter trace < 2 ^ 64) : count = count' := by
  obtain ⟨h, read, shown⟩ := readHeader_past created past (past.le.trans_lt short)
  obtain ⟨h', read', shown'⟩ := readHeader_past created past' (past'.le.trans_lt short)
  rw [read] at read'
  cases read'
  exact shown.symm.trans shown'

/-- Before the sequence numbers wrap, the position of a container is its number. -/
theorem past_of_shownAt {nextSeq : UInt64}
    (created : Vault.create name description capacityBytes password admin draws = .ok origin)
    (shown : ShownAt password origin trace nextSeq file) (short : recordsAfter trace < 2 ^ 64) :
    Past password origin trace nextSeq.toNat file := by
  obtain ⟨earlier, w, isPrefix, reached, rfl, rfl⟩ := shown
  exact ⟨earlier, w, isPrefix, reached, (reached.chainNextSeq_eq created
    ((recordsAfter_isPrefix isPrefix).trans_lt short)).symm, rfl⟩

end Run

end

end ReVault
