import Mathlib.Data.List.Induction
import ReVault.Device.Handle
import ReVault.Tui.Frames

/-!
# Locking by the clock

A vault that is left alone is locked by the first round of the event loop that finds it left
alone for thirty seconds, and by none before. Only key presses on the vaults tab and on the
network tab count as activity.
-/

namespace ReVault.Tui.App

open Foundation Primitives

variable {SocketAddr : Type}

/-- A round that leaves an unlocked vault alone: only key presses that the vaults tab or the
network tab takes do not. -/
def leavesAlone (app : App) : Input SocketAddr → Bool
  | .tick _ _ => true
  | .key _ key =>
      app.quits key || (!app.blocksTabSwitch && key = .tab) || app.selectedTab = .logs ||
        app.selectedTab = .settings

variable [Primitives] [SocketAddress SocketAddr]

/-- Rounds that leave an unlocked vault alone. -/
def LeftAlone : List (Input SocketAddr) → App × FileSystem → Prop
  | [], _ => True
  | input :: later, world => world.1.leavesAlone input = true ∧ LeftAlone later (step world input)

section

variable {env : Environment SocketAddr} {disk disk' : FileSystem} {key : KeyCode} {app app' : App}

/-- A key press that leaves the vault alone does not reach the vaults. -/
theorem vaults_handleKey (alone : app.leavesAlone (.key env key) = true) :
    (app.handleKey env disk key).1.vaults = app.vaults := by
  simp only [leavesAlone, Bool.or_eq_true, decide_eq_true_eq] at alone
  unfold handleKey
  split
  · rfl
  · split
    · rfl
    · split <;> simp_all

/-- Any other is an activity of the vault that is unlocked afterwards. -/
theorem Presses.lastActivity_eq (presses : Presses env disk key app app' disk')
    (touches : app.leavesAlone (.key env key) = false) {state : UnlockedState}
    (unlocked : app'.vaults.mode = .unlocked state) : state.lastActivity = env.now := by
  simp only [leavesAlone, Bool.or_eq_false_iff, decide_eq_false_iff_not] at touches
  obtain ⟨⟨⟨stays, noSwitch⟩, notLogs⟩, notSettings⟩ := touches
  cases presses with
  | idle untaken => simp_all
  | switch closed isTab => simp_all
  | settings selected => exact absurd selected notSettings
  | vaults selected =>
      rw [VaultsApp.mode_handleKey] at unlocked
      rcases app.vaults.unlocked_processKey env disk key unlocked with
        ⟨form, path, name, opened, _, _, _, rfl⟩ | ⟨state, wasUnlocked, rfl⟩
      · rw [UnlockedState.ofVault]
        exact ((UnlockedState.SameSession.refreshFiles _).trans
          (UnlockedState.SameSession.refreshRecipients _)).lastActivity
      · exact (UnlockedState.SameSession.handleKey disk env.draws key state env.now).lastActivity
  | network selected =>
      obtain ⟨state, wasUnlocked, shares⟩ := unlocked_networkKey env disk key unlocked
      exact (UnlockedState.SameSession.of_shares shares).lastActivity

end

section

variable {world : App × FileSystem} {inputs : List (Input SocketAddr)}

/-- A vault that is locked and left alone stays locked. -/
theorem browsing_of_leftAlone (browsing : world.1.vaults.mode = .browsing)
    (alone : LeftAlone inputs world) : (after inputs world).1.vaults.mode = .browsing := by
  induction inputs generalizing world with
  | nil => exact browsing
  | cons input later ih =>
      apply ih _ alone.2
      cases input with
      | key env key =>
          change (world.1.handleKey env world.2 key).1.vaults.mode = _
          rw [vaults_handleKey alone.1, browsing]
      | tick env polled =>
          change (world.1.tick env world.2 polled).1.vaults.mode = _
          rw [tick, browsing]
          exact browsing

omit [SocketAddress SocketAddr] in
/-- A round of the clock. -/
theorem mode_tick {state : UnlockedState} (env : Environment SocketAddr) (polled : Polled)
    (unlocked : world.1.vaults.mode = .unlocked state) :
    (world.1.tick env world.2 polled).1.vaults.mode =
      if env.now - state.lastActivity < defaultTimeout then
        .unlocked (state.pollNetwork polled).1
      else .browsing := by
  rw [tick, unlocked]
  by_cases active : env.now - state.lastActivity < defaultTimeout
  · simp [active, Nat.not_le.mpr active]
  · simp [active, Nat.not_lt.mp active, VaultsApp.refresh]

omit [SocketAddress SocketAddr] in
/-- What is unlocked after a round of the clock was unlocked before, and not left alone for as
long as the timeout. -/
theorem unlocked_tick {env : Environment SocketAddr} {polled : Polled} {state' : UnlockedState}
    (unlocked : (world.1.tick env world.2 polled).1.vaults.mode = .unlocked state') :
    ∃ state, world.1.vaults.mode = .unlocked state ∧
      env.now - state.lastActivity < defaultTimeout ∧ state' = (state.pollNetwork polled).1 := by
  have ticks := ticks_tick env world.2 polled world.1
  generalize (world.1.tick env world.2 polled).1 = app' at *
  cases ticks with
  | idle locked => exact absurd unlocked (locked state')
  | lock _ _ => cases unlocked
  | poll wasUnlocked active => exact ⟨_, wasUnlocked, active, (Mode.unlocked.inj unlocked).symm⟩

/-- **Locking by the clock.** A vault that is left alone stays unlocked exactly until a round
finds it left alone for as long as the timeout. -/
theorem unlocked_iff_of_leftAlone {state : UnlockedState}
    (unlocked : world.1.vaults.mode = .unlocked state) (alone : LeftAlone inputs world) :
    (∃ state', (after inputs world).1.vaults.mode = .unlocked state') ↔
      ∀ env polled, .tick env polled ∈ inputs →
        env.now - state.lastActivity < defaultTimeout := by
  induction inputs generalizing world state with
  | nil => simp [after, unlocked]
  | cons input later ih =>
      cases input with
      | key env key =>
          have same : (step world (.key env key)).1.vaults.mode = .unlocked state := by
            change (world.1.handleKey env world.2 key).1.vaults.mode = _
            rw [vaults_handleKey alone.1, unlocked]
          have rest := ih same alone.2
          simp only [List.mem_cons, reduceCtorEq, false_or]
          exact rest
      | tick env polled =>
          have ticked : (step world (.tick env polled)).1.vaults.mode = _ :=
            mode_tick env polled unlocked
          by_cases active : env.now - state.lastActivity < defaultTimeout
          · rw [if_pos active] at ticked
            have rest := ih ticked alone.2
            rw [(UnlockedState.SameSession.pollNetwork state polled).lastActivity] at rest
            constructor
            · intro stays env' polled' member
              rcases List.mem_cons.mp member with same | member
              · cases same
                exact active
              · exact rest.mp stays env' polled' member
            · exact fun all => rest.mpr fun env' polled' member =>
                all env' polled' (List.mem_cons_of_mem _ member)
          · rw [if_neg active] at ticked
            have locked := browsing_of_leftAlone ticked alone.2
            constructor
            · rintro ⟨state', stays⟩
              have stays' : (after later (step world (.tick env polled))).1.vaults.mode = _ := stays
              rw [locked] at stays'
              cases stays'
            · exact fun all => absurd (all env polled List.mem_cons_self) active

end

/-- One part of a run after the other. -/
theorem after_append (first second : List (Input SocketAddr)) (world : App × FileSystem) :
    after (first ++ second) world = after second (after first world) := List.foldl_append

/-- Rounds after one another. -/
theorem leftAlone_append {first second : List (Input SocketAddr)} {world : App × FileSystem} :
    LeftAlone (first ++ second) world ↔
      LeftAlone first world ∧ LeftAlone second (after first world) := by
  induction first generalizing world with
  | nil => exact ⟨fun alone => ⟨trivial, alone⟩, And.right⟩
  | cons input later ih =>
      constructor
      · rintro ⟨alone, rest⟩
        obtain ⟨before, behind⟩ := ih.mp rest
        exact ⟨⟨alone, before⟩, behind⟩
      · rintro ⟨⟨alone, before⟩, behind⟩
        exact ⟨alone, ih.mpr ⟨before, behind⟩⟩

/-- A key press that opened or used a vault, and the rounds since, none of them too late. -/
def UsedAt (inputs : List (Input SocketAddr)) (world : App × FileSystem) (time : Nat) : Prop :=
  ∃ earlier env key later, inputs = earlier ++ .key env key :: later ∧ time = env.now ∧
    LeftAlone later (after (earlier ++ [.key env key]) world) ∧
    ∀ env' polled, .tick env' polled ∈ later → env'.now - env.now < defaultTimeout

/-- One more round that leaves the vault alone. -/
theorem UsedAt.later {inputs : List (Input SocketAddr)} {world : App × FileSystem} {time : Nat}
    (used : UsedAt inputs world time) {input : Input SocketAddr}
    (alone : (after inputs world).1.leavesAlone input = true)
    (inTime : ∀ env polled, input = .tick env polled → env.now - time < defaultTimeout) :
    UsedAt (inputs ++ [input]) world time := by
  obtain ⟨earlier, env, key, later, rfl, rfl, leftAlone, since⟩ := used
  refine ⟨earlier, env, key, later ++ [input], by simp, rfl, ?_, fun env' polled member => ?_⟩
  · rw [leftAlone_append]
    refine ⟨leftAlone, ?_, trivial⟩
    rw [← after_append, List.append_assoc]
    exact alone
  · rcases List.mem_append.mp member with before | same
    · exact since env' polled before
    · exact inTime env' polled (List.mem_singleton.mp same).symm

/-- **No vault stays unlocked for longer.** In every run, a vault that is unlocked was opened or
used by a key press, and every round since then left it alone and came in time. -/
theorem unlocked_after (start : Environment SocketAddr) (dir : Path) (identity : Identity)
    (disk : FileSystem) (inputs : List (Input SocketAddr)) {state : UnlockedState}
    (unlocked : (after inputs (new start dir identity disk, disk)).1.vaults.mode =
      .unlocked state) :
    UsedAt inputs (new start dir identity disk, disk) state.lastActivity := by
  induction inputs using List.reverseRecOn generalizing state with
  | nil => cases unlocked
  | append_singleton inputs last ih =>
      rw [after_append] at unlocked
      change (step (after inputs _) last).1.vaults.mode = _ at unlocked
      cases last with
      | key env key =>
          cases alone : (after inputs (new start dir identity disk, disk)).1.leavesAlone
              (.key env key) with
          | true =>
              change (handleKey env _ key _).1.vaults.mode = _ at unlocked
              rw [vaults_handleKey alone] at unlocked
              exact (ih unlocked).later alone nofun
          | false =>
              have now := (presses_handleKey env _ key _).lastActivity_eq alone unlocked
              exact ⟨inputs, env, key, [], rfl, now, trivial, nofun⟩
      | tick env polled =>
          rcases unlocked_tick unlocked with ⟨before, wasUnlocked, active, rfl⟩
          rw [(UnlockedState.SameSession.pollNetwork before polled).lastActivity]
          apply (ih wasUnlocked).later rfl
          rintro _ _ ⟨⟩
          exact active

end ReVault.Tui.App

namespace ReVault.Transparent

open Foundation Primitives Tui

/-- A device with one vault, in a directory of its own. -/
def surroundings (now : Nat) : Environment Loopback where
  now := now
  draws := draws 1
  entries _ := ["v.rvlt"]
  parseCapacity _ := .ok 65536
  join _ _ _ := (.error (.error .io), none)
  listens _ := true

/-- The keys that unlock it. -/
def unlocking : List (Input Loopback) :=
  [.key (surroundings 0) .enter, .key (surroundings 0) (.char 'p'), .key (surroundings 0) .enter]

/-- A disk with one file. -/
def holding (file : Bytes) : FileSystem := fun path => if path = "v.rvlt" then some file else none

/-- The interface when it is started on it. -/
def launched (file : Bytes) : App × FileSystem :=
  (App.new (surroundings 0) "" (identity 1) (holding file), holding file)

/-- They unlock it whatever it holds. -/
theorem unlocking_opens {file : Bytes} {v : Vault} {summary : VaultSummary}
    (peeks : Vault.peekSummary file = .ok summary)
    (opened : Vault.openWithPassword file "p" (identity 1) = .ok v) :
    (App.after unlocking (launched file)).1.vaults.mode =
        .unlocked (.ofVault v "v.rvlt" summary.name (identity 1) 0) ∧
      (App.after unlocking (launched file)).1.selectedTab = .vaults := by
  have there : holding file "v.rvlt" = some file := rfl
  have isContainer : hasRvltExtension "v.rvlt" = true := by decide
  have scanned : scanVaultsDir ["v.rvlt"] (holding file) =
      [⟨"v.rvlt", summary.name, summary.description, summary.capacityBytes⟩] := by
    simp [scanVaultsDir, isContainer, there, peeks]
  have unlocks : OpenVault.openVault "v.rvlt" "p" (identity 1) (holding file) =
      .ok ⟨"v.rvlt", v⟩ (holding file) := OpenVault.openVault_of_ok there opened
  simp [App.after, unlocking, launched, App.new, App.step, App.handleKey, App.quits,
    App.blocksTabSwitch, surroundings, scanned, VaultsApp.handleKey, VaultsApp.processKey,
    VaultsApp.browsingKey, VaultsApp.blocksTabSwitch, VaultsApp.unlockingKey,
    UnlockForm.handleKey, VaultsApp.tryUnlock, unlocks]

/-- A vault is unlocked. -/
theorem exists_unlocked : ∃ disk state,
    (App.after unlocking (App.new (surroundings 0) "" (identity 1) disk, disk)).1.vaults.mode =
      .unlocked state ∧ state.lastActivity = 0 := by
  obtain ⟨origin, made, _⟩ := exists_container
  have holds := (Vault.create_spec made).holds (by decide)
  obtain ⟨v, opened, _⟩ := holds.opens (identity 1)
  exact ⟨holding origin.file, _, (unlocking_opens holds.peeks opened).1,
    ((Tui.UnlockedState.SameSession.refreshFiles _).trans
      (Tui.UnlockedState.SameSession.refreshRecipients _)).lastActivity⟩

/-- The vault that was unlocked is left alone for twenty-nine seconds, and for thirty-one. -/
theorem unlocked_left_alone : ∃ (world : App × FileSystem) (state : Tui.UnlockedState),
    world.1.vaults.mode = .unlocked state ∧
      (∃ state', (App.after [.tick (surroundings (29 * 10 ^ 9)) ⟨[], none⟩] world).1.vaults.mode =
        .unlocked state') ∧
      ¬ ∃ state', (App.after [.tick (surroundings (31 * 10 ^ 9)) ⟨[], none⟩] world).1.vaults.mode =
        .unlocked state' := by
  obtain ⟨disk, state, unlocked, active⟩ := exists_unlocked
  have alone : ∀ now, App.LeftAlone [.tick (surroundings now) ⟨[], none⟩]
      (App.after unlocking (App.new (surroundings 0) "" (identity 1) disk, disk)) :=
    fun _ => ⟨rfl, trivial⟩
  refine ⟨_, state, unlocked, ?_, ?_⟩
  · apply (App.unlocked_iff_of_leftAlone unlocked (alone _)).mpr
    rintro env polled (_ | ⟨_, ⟨⟩⟩)
    rw [active]
    decide
  · intro stays
    have inTime := (App.unlocked_iff_of_leftAlone unlocked (alone _)).mp stays _ _
      List.mem_cons_self
    rw [active] at inTime
    exact absurd inTime (by decide)

/-- It was used when it was unlocked. -/
theorem unlocked_used : ∃ disk,
    App.UsedAt unlocking (App.new (surroundings 0) "" (identity 1) disk, disk) 0 := by
  obtain ⟨disk, state, unlocked, active⟩ := exists_unlocked
  have used := App.unlocked_after (surroundings 0) "" (identity 1) disk unlocking unlocked
  rw [active] at used
  exact ⟨disk, used⟩

end ReVault.Transparent
