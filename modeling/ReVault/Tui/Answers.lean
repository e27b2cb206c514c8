import ReVault.Tui.Requests

/-!
# Answers to peers

In every run of the interface and its network thread, in whatever order they take their turns: the
thread runs while the vault is served, every peer that reports its position is answered in turn
and in time, and what becomes of its connection is what becomes of one that is served from a
console at one moment.
-/

namespace ReVault.Tui

open Foundation Primitives

variable [Primitives] {SocketAddr : Type} [SocketAddress SocketAddr]

/-! ## The thread and the vault -/

/-- A vault that is served after a round was unlocked before it. -/
theorem App.unlocked_of_serves {input : Input SocketAddr} {world : App × FileSystem}
    {state' : UnlockedState} (unlocked : (App.step world input).1.vaults.mode = .unlocked state')
    (serves : state'.serves = true) :
    ∃ state, world.1.vaults.mode = .unlocked state ∧
      state'.localIdentity = state.localIdentity := by
  rcases App.unlocked_step unlocked with
    ⟨_, path, name, opened, _, _, _, rfl⟩ | ⟨state, wasUnlocked, evolves⟩
  · have core := UnlockedState.ofVault_core opened.vault path name world.1.vaults.identity
      input.env.now
    rw [UnlockedState.serves, core] at serves
    cases serves
  · exact ⟨state, wasUnlocked, evolves.keeps.2⟩

namespace Host

variable {text : VaultError → String} {start : Host} {happenings : List (Happening SocketAddr)}

/-- One more happening. -/
theorem after_concat (happenings : List (Happening SocketAddr)) (happening : Happening SocketAddr)
    (start : Host) :
    after text (happenings ++ [happening]) start =
      step text (after text happenings start) happening := by
  rw [after, List.foldl_append]
  rfl

/-- The thread runs while the vault is served, for the identity that unlocked it. -/
structure Attended (host : Host) : Prop where
  focused : host.app.Focused
  oneSession : host.app.OneSession
  runs : host.bridge.isSome = host.app.vaults.serves
  owns : ∀ bridge state, host.bridge = some bridge → host.app.vaults.mode = .unlocked state →
    bridge.identity = state.localIdentity

omit [Primitives] in
/-- While the thread runs the vault is served. -/
theorem Attended.serves_of_bridge {host : Host} (attended : host.Attended) {bridge : Bridge}
    (runs : host.bridge = some bridge) : host.app.vaults.serves = true := by
  rw [← attended.runs, runs]
  rfl

omit [Primitives] in
/-- What the thread does leaves the interface alone. -/
theorem Attended.map {host : Host} (attended : host.Attended) {change : Bridge → Bridge}
    (identity : ∀ bridge, (change bridge).identity = bridge.identity) :
    Attended { host with bridge := host.bridge.map change } where
  focused := attended.focused
  oneSession := attended.oneSession
  runs := by
    rw [← attended.runs]
    exact Option.isSome_map
  owns := by
    intro bridge state runs unlocked
    obtain ⟨before, ran, rfl⟩ := Option.map_eq_some_iff.mp runs
    rw [identity]
    exact attended.owns before state ran unlocked

omit [Primitives] in
/-- A session begins while none runs. -/
theorem Attended.idle_of_starts {host : Host} (attended : host.Attended) {key : KeyCode}
    {app : App} (starts : host.app.startsServing key app = true) : host.bridge = none := by
  simp only [App.startsServing, NetworkTabWidget.startsServing, Bool.and_eq_true] at starts
  have idle := attended.runs
  rw [attended.oneSession starts.2.1.1] at idle
  exact Option.isNone_iff_eq_none.mp (Option.isSome_eq_false_iff.mp idle)

/-- What becomes of the thread in a key press. -/
theorem Attended.key (text : VaultError → String) {host : Host} (attended : host.Attended)
    (env : Environment SocketAddr) (key : KeyCode) :
    (step text host (.key env key)).Attended ∧
      ∀ bridge, (step text host (.key env key)).bridge = some bridge →
        host.bridge = some bridge ∨
          host.bridge = none ∧ ∃ identity, bridge = Bridge.start identity := by
  have focused : (App.step (host.app, host.disk) (.key env key)).1.Focused :=
    App.Focused.step attended.focused _
  have one := attended.oneSession.handleKey attended.focused env host.disk key
  have unlockedBefore : ∀ state', (host.app.handleKey env host.disk key).1.vaults.mode =
      .unlocked state' → state'.serves = true → ∃ state, host.app.vaults.mode = .unlocked state ∧
        state'.localIdentity = state.localIdentity :=
    fun state' => @App.unlocked_of_serves _ SocketAddr _ (.key env key) (host.app, host.disk) state'
  change (host.app.handleKey env host.disk key).1.Focused at focused
  change Attended ⟨(host.app.handleKey env host.disk key).1,
    (host.app.handleKey env host.disk key).2,
    host.bridgeAfter key (host.app.handleKey env host.disk key).1⟩ ∧
    ∀ bridge, host.bridgeAfter key (host.app.handleKey env host.disk key).1 = some bridge → _
  generalize (host.app.handleKey env host.disk key).1 = app at *
  generalize (host.app.handleKey env host.disk key).2 = disk at *
  rw [bridgeAfter]
  split
  · rename_i state unlocked
    have serves : app.vaults.serves = state.serves := by rw [VaultsApp.serves, unlocked]
    split
    · rename_i stopped
      rw [Bool.not_eq_true'] at stopped
      refine ⟨⟨focused, one.1, ?_, by simp⟩, by simp⟩
      rw [serves, stopped]
      rfl
    · rename_i served
      rw [Bool.not_eq_true, Bool.not_eq_false'] at served
      split
      · rename_i starts
        refine ⟨⟨focused, one.1, ?_, ?_⟩, ?_⟩
        · rw [serves, served]
          rfl
        · rintro bridge state' ⟨⟩ unlocked'
          obtain rfl := Mode.unlocked.inj (unlocked.symm.trans unlocked')
          rfl
        · rintro bridge ⟨⟩
          exact Or.inr ⟨attended.idle_of_starts starts, _, rfl⟩
      · rename_i starts
        have before : host.app.vaults.serves = true :=
          (one.2 (serves.trans served)).resolve_right starts
        refine ⟨⟨focused, one.1, ?_, ?_⟩, fun bridge runs => Or.inl runs⟩
        · rw [attended.runs, before, serves, served]
        · intro bridge state' runs unlocked'
          obtain rfl := Mode.unlocked.inj (unlocked.symm.trans unlocked')
          obtain ⟨earlier, wasUnlocked, same⟩ := unlockedBefore state unlocked served
          rw [attended.owns bridge earlier runs wasUnlocked, same]
  · rename_i locked
    refine ⟨⟨focused, one.1, ?_, by simp⟩, by simp⟩
    rw [VaultsApp.serves]
    split
    · rename_i state unlocked
      exact absurd unlocked (locked state)
    · rfl

/-- What becomes of the thread in a tick: it ends, or a request is answered. -/
theorem Attended.tick (text : VaultError → String) {host : Host} (attended : host.Attended)
    (env : Environment SocketAddr) :
    (step text host (.tick env)).Attended ∧
      ∀ bridge, (step text host (.tick env)).bridge = some bridge →
        ∃ before state journal, host.bridge = some before ∧
          host.app.vaults.mode = .unlocked state ∧ state.network = some journal ∧
          bridge = before.afterPoll (before.mailbox.next?.map fun connection =>
            ReVault.pollNetwork state.vault journal connection.peerId connection.nextSeq) := by
  have focused : (App.step (host.app, host.disk) (.tick env host.polled)).1.Focused :=
    App.Focused.step attended.focused _
  change (host.app.tick env host.disk host.polled).1.Focused at focused
  have ticks : App.Ticks env host.disk host.polled host.app
      (host.app.tick env host.disk host.polled).1 :=
    App.ticks_tick env host.disk host.polled host.app
  have answer : ∀ state journal, host.app.vaults.mode = .unlocked state →
      state.network = some journal → env.now - state.lastActivity < defaultTimeout →
        (host.app.tick env host.disk host.polled).2 = host.polled.request.map fun request =>
          ReVault.pollNetwork state.vault journal request.1 request.2 :=
    fun _ _ => App.tick_of_active env host.disk host.polled
  change Attended ⟨(host.app.tick env host.disk host.polled).1, host.disk,
    if (host.app.tick env host.disk host.polled).1.vaults.serves then
      host.bridge.map (·.afterPoll (host.app.tick env host.disk host.polled).2) else none⟩ ∧
    ∀ bridge, (if (host.app.tick env host.disk host.polled).1.vaults.serves then
      host.bridge.map (·.afterPoll (host.app.tick env host.disk host.polled).2) else none) =
        some bridge → _
  generalize (host.app.tick env host.disk host.polled).1 = app at *
  generalize (host.app.tick env host.disk host.polled).2 = response at *
  cases ticks with
  | idle locked =>
      have idle : host.app.vaults.serves = false := by
        rw [VaultsApp.serves]
        split
        · rename_i state unlocked
          exact absurd unlocked (locked state)
        · rfl
      rw [idle]
      refine ⟨⟨focused, attended.oneSession, ?_, by simp⟩, by simp⟩
      simp [idle]
  | lock unlocked expired =>
      refine ⟨⟨focused, ?_, ?_, ?_⟩, ?_⟩
      · intro _
        rfl
      all_goals simp [VaultsApp.serves, VaultsApp.refresh]
  | @poll state unlocked active =>
      have kept := state.serves_pollNetwork host.polled
      have before : host.app.vaults.serves = state.serves := by
        rw [VaultsApp.serves, unlocked]
      have after : VaultsApp.serves { host.app.vaults with
          mode := .unlocked (state.pollNetwork host.polled).1 } = host.app.vaults.serves := by
        rw [before, ← kept]
        rfl
      have one : App.OneSession { host.app with
          vaults := { host.app.vaults with
            mode := .unlocked (state.pollNetwork host.polled).1 } } := by
        intro prompts
        rw [after]
        exact attended.oneSession prompts
      by_cases served : host.app.vaults.serves = true
      · obtain ⟨journal, serving⟩ := Option.isSome_iff_exists.mp (before.symm.trans served)
        have given := answer state journal unlocked serving active
        rw [if_pos (after.trans served)]
        refine ⟨⟨focused, one, ?_, ?_⟩, ?_⟩
        · rw [Option.isSome_map, attended.runs, after]
        · intro bridge state' runs unlocked'
          obtain ⟨earlier, ran, rfl⟩ := Option.map_eq_some_iff.mp runs
          obtain rfl := Mode.unlocked.inj unlocked'
          rw [(UnlockedState.SameSession.pollNetwork state host.polled).localIdentity]
          exact attended.owns earlier state ran unlocked
        · intro bridge runs
          obtain ⟨earlier, ran, rfl⟩ := Option.map_eq_some_iff.mp runs
          refine ⟨earlier, state, journal, ran, unlocked, serving, ?_⟩
          rw [given, polled, ran]
          simp [Bridge.polled, Function.comp_def]
      · rw [if_neg (by rw [after]; exact served)]
        refine ⟨⟨focused, one, ?_, by simp⟩, by simp⟩
        rw [after, Bool.eq_false_of_not_eq_true served]
        rfl

/-- What the thread does by itself. -/
def acts (text : VaultError → String) : Happening SocketAddr → Bridge → Bridge
  | .key _ _ | .tick _ => id
  | .connects ephemeral stream => (·.connect text ephemeral stream)
  | .finishes ticket => (·.finish text ticket)
  | .refuses reason => fun bridge =>
      { bridge with events := bridge.events ++ [.failed ("accept error: " ++ reason)] }

omit [SocketAddress SocketAddr] in
/-- The thread keeps its identity. -/
theorem identity_acts (text : VaultError → String) (happening : Happening SocketAddr)
    (bridge : Bridge) :
    (acts text happening bridge).identity = bridge.identity := by
  cases happening with
  | connects ephemeral stream =>
      change (bridge.connect text ephemeral stream).identity = _
      rcases bridge.connect_eq text ephemeral stream with ⟨_, _, eq⟩ | ⟨_, eq⟩ <;> rw [eq]
  | finishes ticket =>
      change (bridge.finish text ticket).identity = _
      rcases bridge.finish_eq text ticket with ⟨_, _, _, _, eq⟩ | eq <;> rw [eq]
  | _ => rfl

/-- **A turn** keeps a thread that runs while the vault is served. -/
theorem Attended.step (text : VaultError → String) {host : Host} (attended : host.Attended)
    (happening : Happening SocketAddr) : (step text host happening).Attended := by
  cases happening with
  | key env key => exact (attended.key text env key).1
  | tick env => exact (attended.tick text env).1
  | connects ephemeral stream =>
      exact attended.map (identity_acts text (.connects ephemeral stream : Happening SocketAddr))
  | finishes ticket =>
      exact attended.map (identity_acts text (.finishes ticket : Happening SocketAddr))
  | refuses reason =>
      exact attended.map (identity_acts text (.refuses reason : Happening SocketAddr))

end Host

/-! ## Sessions that go on -/

/-- The ticks of a run. -/
def ticks (happenings : List (Happening SocketAddr)) : Nat :=
  happenings.countP fun
    | .tick _ => true
    | _ => false

/-- The requests of a session that runs: those answered and those that wait. -/
structure Attendance (text : VaultError → String) (start : Host)
    (happenings : List (Happening SocketAddr)) (began : Nat) (done : List Served)
    (waiting : List Request) : Prop where
  attended : (Host.after text happenings start).Attended
  runs : ∃ bridge, (Host.after text happenings start).bridge = some bridge ∧
    ServingSession text start happenings bridge began done waiting

/-- The session goes on after a turn: what waits stays in line, and a tick answers the first. -/
def GoesOn (text : VaultError → String) (start : Host) (happenings : List (Happening SocketAddr))
    (began : Nat) (done : List Served) (waiting : List Request)
    (happening : Happening SocketAddr) : Prop :=
  ∃ done' waiting', Attendance text start (happenings ++ [happening]) began done' waiting' ∧
    done.map Served.toRequest ++ waiting <+: done'.map Served.toRequest ++ waiting' ∧
    done.length + min (ticks [happening]) waiting.length ≤ done'.length

section

variable {text : VaultError → String} {start : Host} {happenings : List (Happening SocketAddr)}
  {began : Nat} {done : List Served} {waiting : List Request}

/-- A turn in which nothing is asked and nothing answered. -/
theorem GoesOn.same {happening : Happening SocketAddr} {bridge : Bridge}
    (attended : (Host.after text (happenings ++ [happening]) start).Attended)
    (runs : (Host.after text (happenings ++ [happening]) start).bridge = some bridge)
    (session : ServingSession text start (happenings ++ [happening]) bridge began done waiting)
    (unanswered : min (ticks [happening]) waiting.length = 0) :
    GoesOn text start happenings began done waiting happening :=
  ⟨done, waiting, ⟨attended, bridge, runs, session⟩, List.prefix_refl _,
    by rw [unanswered]; exact Nat.le_refl _⟩

namespace Attendance

variable (attendance : Attendance text start happenings began done waiting)

include attendance

/-- One more happening keeps the thread attended. -/
theorem attended_concat (happening : Happening SocketAddr) :
    (Host.after text (happenings ++ [happening]) start).Attended := by
  rw [Host.after_concat]
  exact attendance.attended.step text happening

/-- A request that is made goes to the end of the line. -/
theorem asks {bridge : Bridge} (runs : (Host.after text happenings start).bridge = some bridge)
    {ephemeral : ByteArr 32} {stream : Stream} {connection : Connection}
    (reports : Reports ephemeral bridge.identity stream connection.peerId connection.nextSeq
      connection.channel)
    (serves : (Host.after text (happenings ++ [.connects ephemeral stream]) start).app.vaults.serves
      = true) :
    Attendance text start (happenings ++ [.connects ephemeral stream]) began done
      (waiting ++ [⟨happenings.length, ephemeral, stream, connection⟩]) := by
  have attended' := attendance.attended_concat (.connects ephemeral stream)
  obtain ⟨_, _, ran, session⟩ := attendance
  obtain rfl := Option.some.inj (runs.symm.trans ran)
  refine ⟨attended', _, ?_, session.asks reports serves⟩
  rw [Host.after_concat, Host.step, runs, ← bridge.connect_of_reports text reports]
  rfl

/-- A key press that does not end the session. -/
theorem goesOn_key (env : Environment SocketAddr) (key : KeyCode)
    (serves : (Host.after text (happenings ++ [.key env key]) start).app.vaults.serves = true) :
    GoesOn text start happenings began done waiting (.key env key) := by
  have attended' := attendance.attended_concat (.key env key)
  obtain ⟨attended, bridge, ran, session⟩ := attendance
  obtain ⟨bridge', runs⟩ := Option.isSome_iff_exists.mp (attended'.runs.trans serves)
  have kept := (attended.key text env key).2
  rw [← Host.after_concat] at kept
  rcases kept bridge' runs with same | ⟨none', _⟩
  · obtain rfl := Option.some.inj (ran.symm.trans same)
    exact .same attended' runs (session.append serves) (by simp [ticks])
  · rw [ran] at none'
    cases none'

/-- A tick that does not end the session answers the first in the line. -/
theorem goesOn_tick (env : Environment SocketAddr)
    (serves : (Host.after text (happenings ++ [.tick env]) start).app.vaults.serves = true) :
    GoesOn text start happenings began done waiting (.tick env) := by
  have attended' := attendance.attended_concat (.tick env)
  obtain ⟨attended, bridge, ran, session⟩ := attendance
  obtain ⟨bridge', runs⟩ := Option.isSome_iff_exists.mp (attended'.runs.trans serves)
  have kept := (attended.tick text env).2
  rw [← Host.after_concat] at kept
  obtain ⟨before, state, journal, ran', unlocked, serving, rfl⟩ := kept bridge' runs
  obtain rfl := Option.some.inj (ran.symm.trans ran')
  rw [session.holds.next?_eq] at runs
  cases waiting with
  | nil =>
      exact .same attended' runs ((session.append serves).reports []) (by simp)
  | cons request later =>
      refine ⟨_, later, ⟨attended', _, runs, session.answered unlocked serving serves⟩, ?_, ?_⟩
      · simp
      · simp [ticks]

/-- A peer that connects makes a request, or something is reported. -/
theorem goesOn_connects (ephemeral : ByteArr 32) (stream : Stream)
    (serves : (Host.after text (happenings ++ [.connects ephemeral stream]) start).app.vaults.serves
      = true) :
    GoesOn text start happenings began done waiting (.connects ephemeral stream) := by
  have attended' := attendance.attended_concat (.connects ephemeral stream)
  obtain ⟨bridge, ran, session⟩ := attendance.runs
  rcases bridge.connect_eq text ephemeral stream with
    ⟨connection, reports, _⟩ | ⟨events, eq⟩
  · refine ⟨done, _, attendance.asks ran reports serves, ?_, ?_⟩
    · simp
    · simp [ticks]
  · have runs : (Host.after text (happenings ++ [.connects ephemeral stream]) start).bridge =
        some { bridge with events := events } := by
      rw [Host.after_concat, Host.step, ran, ← eq]
      rfl
    exact .same attended' runs ((session.append serves).reports events) (by simp [ticks])

/-- A connection that takes its answer. -/
theorem goesOn_finishes (ticket : Nat)
    (serves : (Host.after text (happenings ++ [.finishes ticket]) start).app.vaults.serves = true) :
    GoesOn text start happenings began done waiting (.finishes ticket) := by
  have attended' := attendance.attended_concat (.finishes ticket)
  obtain ⟨bridge, ran, session⟩ := attendance.runs
  have runs : (Host.after text (happenings ++ [.finishes ticket]) start).bridge =
      some (bridge.finish text ticket) := by
    rw [Host.after_concat, Host.step, ran]
    rfl
  rcases bridge.finish_eq text ticket with ⟨_, _, events, answered, eq⟩ | eq
  · rw [eq] at runs
    exact .same attended' runs ((session.append serves).takes answered events) (by simp [ticks])
  · rw [eq] at runs
    exact .same attended' runs (session.append serves) (by simp [ticks])

/-- **A turn** while the vault is served. -/
theorem concat (happening : Happening SocketAddr)
    (serves : (Host.after text (happenings ++ [happening]) start).app.vaults.serves = true) :
    GoesOn text start happenings began done waiting happening := by
  cases happening with
  | key env key => exact attendance.goesOn_key env key serves
  | tick env => exact attendance.goesOn_tick env serves
  | connects ephemeral stream => exact attendance.goesOn_connects ephemeral stream serves
  | finishes ticket => exact attendance.goesOn_finishes ticket serves
  | refuses reason =>
      have attended' := attendance.attended_concat (.refuses reason)
      obtain ⟨bridge, ran, session⟩ := attendance.runs
      have runs : (Host.after text (happenings ++ [.refuses reason]) start).bridge =
          some { bridge with
            events := bridge.events ++ [.failed ("accept error: " ++ reason)] } := by
        rw [Host.after_concat, Host.step, ran]
        rfl
      exact .same attended' runs ((session.append serves).reports _) (by simp [ticks])

end Attendance

end

/-- Any number of turns while the vault is served. -/
theorem Attendance.append {text : VaultError → String} {start : Host}
    {happenings : List (Happening SocketAddr)} {began : Nat} {done : List Served}
    {waiting : List Request} (attendance : Attendance text start happenings began done waiting)
    (later : List (Happening SocketAddr))
    (serves : ∀ turn, turn ≤ later.length →
      (Host.after text (happenings ++ later.take turn) start).app.vaults.serves = true) :
    ∃ done' waiting', Attendance text start (happenings ++ later) began done' waiting' ∧
      done.map Served.toRequest ++ waiting <+: done'.map Served.toRequest ++ waiting' ∧
      done.length + min (ticks later) waiting.length ≤ done'.length := by
  induction later using List.reverseRecOn with
  | nil => exact ⟨done, waiting, by simpa using attendance, List.prefix_refl _, by simp [ticks]⟩
  | append_singleton earlier last ih =>
      have before : ∀ turn, turn ≤ earlier.length →
          (Host.after text (happenings ++ earlier.take turn) start).app.vaults.serves = true := by
        intro turn early
        have served := serves turn (by rw [List.length_append]; omega)
        rwa [List.take_append_of_le_length early] at served
      have now := serves (earlier ++ [last]).length (Nat.le_refl _)
      rw [List.take_length, ← List.append_assoc] at now
      obtain ⟨middle, line, reached, kept, progress⟩ := ih before
      obtain ⟨done', waiting', reached', kept', progress'⟩ := reached.concat last now
      rw [List.append_assoc] at reached'
      refine ⟨done', waiting', reached', kept.trans kept', ?_⟩
      have longer := kept.length_le
      simp only [List.length_append, List.length_map] at longer
      have counted : ticks (earlier ++ [last]) = ticks earlier + ticks [last] := by
        simp [ticks]
      omega

/-! ## Runs -/

namespace Host

/-- The interface when it is started, with no network thread. -/
def new (start : Environment SocketAddr) (dir : Path) (identity : Identity) (disk : FileSystem) :
    Host := ⟨App.new start dir identity disk, disk, none⟩

variable (text : VaultError → String) (start : Environment SocketAddr) (dir : Path)
  (identity : Identity) (disk : FileSystem) (happenings : List (Happening SocketAddr))

/-- The thread is attended in every run. -/
theorem attended_after : (after text happenings (new start dir identity disk)).Attended := by
  induction happenings using List.reverseRecOn with
  | nil =>
      refine ⟨App.focused_new start dir identity disk, ?_, rfl, ?_⟩
      · intro prompts
        cases prompts
      · intro bridge state runs
        cases runs
  | append_singleton earlier last ih =>
      rw [after_concat]
      exact ih.step text last

/-- A thread that begins, begins with nothing to do. -/
theorem Attended.begins {host : Host} (attended : host.Attended) (idle : host.bridge = none)
    (happening : Happening SocketAddr) {bridge : Bridge}
    (runs : (Host.step text host happening).bridge = some bridge) :
    ∃ identity, bridge = Bridge.start identity := by
  cases happening with
  | key env key =>
      rcases (attended.key text env key).2 bridge runs with ran | ⟨_, begins⟩
      · rw [idle] at ran
        cases ran
      · exact begins
  | tick env =>
      obtain ⟨_, _, _, ran, _⟩ := (attended.tick text env).2 bridge runs
      rw [idle] at ran
      cases ran
  | _ =>
      rw [Host.step, idle] at runs
      cases runs

variable {text start dir identity disk happenings}

/-- Whenever the vault is served, there is a session. -/
theorem attendance_after
    (serves : (after text happenings (new start dir identity disk)).app.vaults.serves = true) :
    ∃ began done waiting,
      Attendance text (new start dir identity disk) happenings began done waiting := by
  induction happenings using List.reverseRecOn with
  | nil => cases serves
  | append_singleton earlier last ih =>
      have before := attended_after text start dir identity disk earlier
      by_cases served : (after text earlier (new start dir identity disk)).app.vaults.serves = true
      · obtain ⟨began, done, waiting, attendance⟩ := ih served
        obtain ⟨done', waiting', next, _⟩ := attendance.concat last serves
        exact ⟨began, done', waiting', next⟩
      · have idle : (after text earlier (new start dir identity disk)).bridge = none := by
          rw [← Option.not_isSome_iff_eq_none, before.runs]
          exact served
        have attended := attended_after text start dir identity disk (earlier ++ [last])
        obtain ⟨bridge, runs⟩ := Option.isSome_iff_exists.mp (attended.runs.trans serves)
        obtain ⟨owner, rfl⟩ := before.begins text idle last (after_concat earlier last _ ▸ runs)
        exact ⟨_, [], [], attended, _, runs, .begins owner serves⟩

/-- A connection was served at one moment: it was made in one turn of the run, and has sent what
is sent, in a later turn, from the vault as it was then, which is what `serve_stream` sends. -/
def ServedAt (text : VaultError → String) (start : Host) (happenings : List (Happening SocketAddr))
    (identity : Identity) (asked answered : Nat) (sent : Stream) : Prop :=
  asked < answered ∧ ∃ ephemeral stream connection state journal,
    Request.Made happenings identity ⟨asked, ephemeral, stream, connection⟩ ∧
    (∃ env, happenings[answered]? = some (.tick env)) ∧
    (after text (happenings.take answered) start).app.vaults.mode = .unlocked state ∧
    state.network = some journal ∧
    sent = finalState (handleConnection ephemeral identity (fun peerId nextSeq =>
      .ok (ReVault.pollNetwork state.vault journal peerId nextSeq)) stream) ∧
    ∀ granted, isGranted state.vault connection.peerId = .ok granted → sent.outgoing =
      (finalState (serveStream ephemeral identity state.vault (some journal) stream)).outgoing

omit [SocketAddress SocketAddr] in
/-- What is sent with an answer is what `handle_connection` sends. -/
theorem sends_of_response {happenings : List (Happening SocketAddr)} {identity : Identity}
    {served : Served} (made : served.toRequest.Made happenings identity) {v : Vault}
    {journal : PatchJournal} (response : served.response =
      ReVault.pollNetwork v journal served.connection.peerId served.connection.nextSeq) :
    served.sends = finalState (handleConnection served.ephemeral identity
      (fun peerId nextSeq => .ok (ReVault.pollNetwork v journal peerId nextSeq))
      served.stream) := by
  rw [made.reports.finalState_handleConnection, Served.sends, response]

/-- What was answered was served at one moment. -/
theorem servedAt_of_answers {text : VaultError → String} {start : Host}
    {happenings : List (Happening SocketAddr)} {identity : Identity} {served : Served}
    (made : served.toRequest.Made happenings identity)
    (answers : served.Answers text start happenings) :
    ServedAt text start happenings identity served.asked served.answered served.sends := by
  obtain ⟨later, ticks, state, journal, unlocked, serving, response⟩ := answers
  have sends := sends_of_response made response
  refine ⟨later, served.ephemeral, served.stream, served.connection, state, journal, made, ticks,
    unlocked, serving, sends, fun granted readable => ?_⟩
  rw [sends]
  exact outgoing_handleConnection made.reports readable

/-- **Each peer is served once, in turn and at one moment.** In every run the thread runs exactly
while the vault is served; what a connection of its session has sent is what `handle_connection`
sends at one moment between its request and its end, and what `serve_stream` does if the
recipients can be read then; and the moments come in the order of the requests. -/
theorem served_after (text : VaultError → String) (start : Environment SocketAddr) (dir : Path)
    (identity : Identity) (disk : FileSystem) (happenings : List (Happening SocketAddr)) :
    let host := new start dir identity disk
    let reached := after text happenings host
    reached.bridge.isSome = reached.app.vaults.serves ∧
      ∀ bridge, reached.bridge = some bridge → ∃ (began : Nat) (asked answered : Nat → Nat),
        (∀ turn, began ≤ turn → turn ≤ happenings.length →
          (after text (happenings.take turn) host).app.vaults.serves = true) ∧
        ∀ ticket sent, bridge.sent ticket = some sent → began ≤ asked ticket ∧
          ServedAt text host happenings bridge.identity (asked ticket) (answered ticket) sent ∧
          ∀ earlier < ticket,
            asked earlier < asked ticket ∧ answered earlier < answered ticket := by
  intro host reached
  have attended := attended_after text start dir identity disk happenings
  refine ⟨attended.runs, fun bridge runs => ?_⟩
  obtain ⟨began, done, waiting, _, _, ran, session⟩ :=
    attendance_after (attended.serves_of_bridge runs)
  obtain rfl := Option.some.inj (runs.symm.trans ran)
  refine ⟨began, fun ticket => (done[ticket]?.map (·.asked)).getD 0,
    fun ticket => (done[ticket]?.map (·.answered)).getD 0, session.lasts, ?_⟩
  intro ticket sent taken
  obtain ⟨served, found, rfl⟩ := session.sent ticket sent taken
  obtain ⟨small, isServed⟩ := List.getElem?_eq_some_iff.mp found
  have member : served ∈ done := List.mem_of_getElem? found
  obtain ⟨recent, made⟩ := session.made served.toRequest
    (List.mem_append_left _ (List.mem_map_of_mem member))
  have inOrder := (List.pairwise_append.mp session.inOrder).1
  simp only [found, Option.map_some, Option.getD_some]
  refine ⟨recent, servedAt_of_answers made (session.answers served member), ?_⟩
  intro earlier before
  have present : done[earlier]? = some (done[earlier]) :=
    List.getElem?_eq_getElem (before.trans small)
  simp only [present, Option.map_some, Option.getD_some, ← isServed]
  exact ⟨List.pairwise_iff_getElem.mp (List.pairwise_map.mp inOrder) _ _ _ _ before,
    List.pairwise_iff_getElem.mp session.inTurn _ _ _ _ before⟩

/-- **No peer is kept waiting.** A peer that reports its position is answered once there has been
a tick for it and for each of those in line before it, if the vault stays served. -/
theorem answered_in_time (text : VaultError → String) (start : Environment SocketAddr) (dir : Path)
    (identity : Identity) (disk : FileSystem) {happenings : List (Happening SocketAddr)}
    {bridge : Bridge}
    (runs : (after text happenings (new start dir identity disk)).bridge = some bridge)
    {ephemeral : ByteArr 32} {stream : Stream} {connection : Connection}
    (reports : Reports ephemeral bridge.identity stream connection.peerId connection.nextSeq
      connection.channel)
    {later : List (Happening SocketAddr)}
    (serves : ∀ turn, turn ≤ later.length →
      (after text (happenings ++ .connects ephemeral stream :: later.take turn)
        (new start dir identity disk)).app.vaults.serves = true)
    (enough : bridge.mailbox.queue.length < ticks later) :
    ∃ bridge' response,
      (after text (happenings ++ .connects ephemeral stream :: later)
        (new start dir identity disk)).bridge = some bridge' ∧
      bridge'.mailbox.answered? bridge.mailbox.asked.length = some (connection, response) := by
  have attended := attended_after text start dir identity disk happenings
  obtain ⟨began, done, waiting, attendance⟩ := attendance_after (attended.serves_of_bridge runs)
  obtain ⟨_, ran, session⟩ := attendance.runs
  obtain rfl := Option.some.inj (runs.symm.trans ran)
  have serves' : ∀ turn, turn ≤ later.length →
      (after text ((happenings ++ [.connects ephemeral stream]) ++ later.take turn)
        (new start dir identity disk)).app.vaults.serves = true := by
    intro turn early
    rw [List.append_assoc]
    exact serves turn early
  have asked := attendance.asks runs reports (by simpa using serves' 0 (Nat.zero_le _))
  obtain ⟨done', waiting', reached, kept, progress⟩ := asked.append later serves'
  obtain ⟨_, bridge', runs', session'⟩ := reached
  rw [List.append_assoc] at runs'
  have line : bridge.mailbox.queue.length = waiting.length := by
    rw [session.holds.queue, List.length_range', List.length_map]
  have ticket : bridge.mailbox.asked.length = done.length + waiting.length := by
    simp [session.holds.asked]
  have answered : done.length + waiting.length < done'.length := by
    rw [List.length_append, List.length_singleton] at progress
    omega
  have found : done'[done.length + waiting.length]? =
      some (done'[done.length + waiting.length]) := List.getElem?_eq_getElem answered
  have same : (done'[done.length + waiting.length]).connection = connection := by
    obtain ⟨newer, eq⟩ := kept
    have position : (done'.map Served.toRequest ++ waiting')[done.length + waiting.length]? =
        some ⟨happenings.length, ephemeral, stream, connection⟩ := by
      rw [← eq]
      simp
    rw [List.getElem?_append_left (by simpa using answered), List.getElem?_map, found] at position
    exact congrArg Request.connection (Option.some.inj position)
  refine ⟨bridge', (done'[done.length + waiting.length]).response, runs', ?_⟩
  rw [session'.holds.answered?_eq, ticket, List.getElem?_map, found, ← same]
  rfl

end Host

end ReVault.Tui

namespace ReVault.Transparent

open Foundation Primitives Tui

/-- The keys that unlock the vault, and those that serve it on port 9. -/
def serving : List (Happening Loopback) :=
  [.enter, .char 'p', .enter, .tab, .char 'n', .char '9', .enter].map (.key (surroundings 0))

/-- The vault is served whatever it holds. -/
theorem serving_serves (text : VaultError → String) {file : Bytes} {v : Vault}
    {summary : VaultSummary} (peeks : Vault.peekSummary file = .ok summary)
    (opened : Vault.openWithPassword file "p" (identity 1) = .ok v) :
    ∃ state : Tui.UnlockedState,
      (Host.after text serving
        (Host.new (surroundings 0) "" (identity 1) (holding file))).app.vaults.mode =
          .unlocked state ∧ state.lastActivity = 0 ∧ state.serves = true ∧
      (Host.after text serving
        (Host.new (surroundings 0) "" (identity 1) (holding file))).bridge =
          some (Bridge.start state.localIdentity) ∧
      state.path = "v.rvlt" ∧
      state.network = some (PatchJournal.empty Unlocked.journalCapacity) := by
  have there : holding file "v.rvlt" = some file := rfl
  have isContainer : hasRvltExtension "v.rvlt" = true := by decide
  have scanned : scanVaultsDir ["v.rvlt"] (holding file) =
      [⟨"v.rvlt", summary.name, summary.description, summary.capacityBytes⟩] := by
    simp [scanVaultsDir, isContainer, there, peeks]
  have unlocks : OpenVault.openVault "v.rvlt" "p" (identity 1) (holding file) =
      .ok ⟨"v.rvlt", v⟩ (holding file) := OpenVault.openVault_of_ok there opened
  generalize shown : Tui.UnlockedState.ofVault v "v.rvlt" summary.name (identity 1) 0 = state
  have closed : state.forms = (none, none, none) := by
    rw [← shown]
    exact Tui.UnlockedState.ofVault_forms _ _ _ _ _
  have idle : state.network = none := by
    rw [← shown, Tui.UnlockedState.ofVault_core]
  have place : state.path = "v.rvlt" := by
    rw [← shown, Tui.UnlockedState.path_ofVault]
  have plain : state.modal = false := by
    simp only [Tui.UnlockedState.forms, Prod.mk.injEq] at closed
    simp [Tui.UnlockedState.modal, closed]
  have port : parsePort (trim "9") = some 9 := by decide
  have digits : ("" : String).push '9' = "9" := rfl
  have digit : Char.isDigit '9' = true := by decide
  have starts : ∀ state : Tui.UnlockedState, (state.attempt Unlocked.startServing).2 =
      { state with network := some (PatchJournal.empty Unlocked.journalCapacity) } := fun _ => rfl
  simp [Host.after, serving, Host.new, App.new, Host.step, App.handleKey, App.quits,
    App.blocksTabSwitch, surroundings, scanned, VaultsApp.handleKey, VaultsApp.processKey,
    VaultsApp.browsingKey, VaultsApp.blocksTabSwitch, VaultsApp.unlockingKey,
    UnlockForm.handleKey, VaultsApp.tryUnlock, unlocks, shown, plain, idle, App.interceptsQuit,
    NetworkTabWidget.isModal, Tab.next, App.networkKey, NetworkTab.modeKey, NetworkTab.idleKey,
    VaultsApp.onUnlocked, VaultsApp.current, NetworkTab.showing, NetworkTab.servePromptKey,
    inputKey, port, digits, digit, starts, Tui.UnlockedState.recordActivity, Host.bridgeAfter,
    App.startsServing, NetworkTabWidget.startsServing, NetworkTabWidget.prompts,
    Tui.UnlockedState.serves, place]

/-- A second later it is still unlocked and served. -/
theorem unlocked_tick (text : VaultError → String) {host : Host} {state : Tui.UnlockedState}
    (unlocked : host.app.vaults.mode = .unlocked state) (active : state.lastActivity = 0)
    (serves : state.serves = true) : ∃ state' : Tui.UnlockedState,
      (Host.step text host (.tick (surroundings 1))).app.vaults.mode = .unlocked state' ∧
        state'.lastActivity = 0 ∧ state'.serves = true := by
  have soon : ¬ defaultTimeout ≤ (surroundings 1).now - state.lastActivity := by
    rw [active]
    decide
  obtain ⟨message, same⟩ := state.pollNetwork_eq host.polled
  refine ⟨(state.pollNetwork host.polled).1, ?_, ?_, ?_⟩
  · simp [Host.step, App.tick, unlocked, soon]
  · rw [same]
    exact active
  · rw [Tui.UnlockedState.serves_pollNetwork]
    exact serves

/-- So it is still served then. -/
theorem serves_tick (text : VaultError → String) {host : Host} {state : Tui.UnlockedState}
    (unlocked : host.app.vaults.mode = .unlocked state) (active : state.lastActivity = 0)
    (serves : state.serves = true) :
    (Host.step text host (.tick (surroundings 1))).app.vaults.serves = true := by
  obtain ⟨state', still, _, served⟩ := unlocked_tick text unlocked active serves
  rw [VaultsApp.serves, still]
  exact served

/-- A peer that shakes hands and reports that it has nothing. -/
theorem exists_reports (adminEphemeral : ByteArr 32) (host me : Identity) :
    ∃ stream channel, Reports adminEphemeral host stream me.peerId 0 channel := by
  obtain ⟨request, short, decrypted, _⟩ := exists_asked adminEphemeral me
    (SecureChannel.readHello_build host (x25519Public adminEphemeral)) rfl
  exact ⟨_, _, reports_request (congrArg deriveSessionKey (Lawful.agrees _ _)) short decrypted []⟩

/-- A peer that connects to it while another one waits is answered in the second tick. -/
theorem peer_answered : ∃ file ephemeral stream bridge stream' connection,
    (Host.after (fun _ => "") (serving ++ [.connects ephemeral stream])
      (Host.new (surroundings 0) "" (identity 1) (holding file))).bridge = some bridge ∧
    bridge.mailbox.queue.length = 1 ∧
    Reports ephemeral bridge.identity stream' connection.peerId connection.nextSeq
      connection.channel ∧
    ∃ bridge' response,
      (Host.after (fun _ => "") (serving ++ [.connects ephemeral stream] ++
        [.connects ephemeral stream', .tick (surroundings 1), .tick (surroundings 1)])
        (Host.new (surroundings 0) "" (identity 1) (holding file))).bridge = some bridge' ∧
      bridge'.mailbox.answered? 1 = some (connection, response) := by
  obtain ⟨origin, made, _⟩ := exists_container
  have holds := (Vault.create_spec made).holds (by decide)
  obtain ⟨v, opened, _⟩ := holds.opens (identity 1)
  obtain ⟨state, unlocked, active, serves, runs, _, _⟩ :=
    serving_serves (fun _ => "") holds.peeks opened
  obtain ⟨stream, channel, reports⟩ := exists_reports (zeroArr 32) state.localIdentity (identity 2)
  obtain ⟨stream', channel', reports'⟩ :=
    exists_reports (zeroArr 32) state.localIdentity (identity 3)
  let bridge := { Bridge.start state.localIdentity with
    mailbox := Mailbox.empty.ask ⟨channel, (identity 2).peerId, 0⟩ }
  have waiting : (Host.after (fun _ => "") (serving ++ [.connects (zeroArr 32) stream])
      (Host.new (surroundings 0) "" (identity 1) (holding origin.file))).bridge = some bridge := by
    rw [Host.after_concat, Host.step, runs]
    exact congrArg some (Bridge.connect_of_reports _ _ reports)
  refine ⟨origin.file, zeroArr 32, stream, bridge, stream', ⟨channel', (identity 3).peerId, 0⟩,
    waiting, rfl, reports', ?_⟩
  have both : (Host.after (fun _ => "") ((serving ++ [.connects (zeroArr 32) stream]) ++
      [.connects (zeroArr 32) stream'])
        (Host.new (surroundings 0) "" (identity 1) (holding origin.file))).app.vaults.mode =
          .unlocked state := by
    rw [Host.after_concat, Host.after_concat]
    exact unlocked
  apply Host.answered_in_time (fun _ => "") (surroundings 0) "" (identity 1) (holding origin.file)
    waiting reports'
  · obtain ⟨state', once, active', serves'⟩ := unlocked_tick (fun _ => "") both active serves
    have twice := serves_tick (fun _ => "") once active' serves'
    have turns : ∀ later : List (Happening Loopback),
        serving ++ [.connects (zeroArr 32) stream] ++ .connects (zeroArr 32) stream' :: later =
          (serving ++ [.connects (zeroArr 32) stream] ++ [.connects (zeroArr 32) stream']) ++
            later := by simp
    intro turn early
    rw [turns]
    match turn, early with
    | 0, _ =>
        rw [List.take_zero, List.append_nil, VaultsApp.serves, both]
        exact serves
    | 1, _ =>
        rw [List.take_succ_cons, List.take_zero, Host.after_concat, VaultsApp.serves, once]
        exact serves'
    | 2, _ =>
        rw [List.take_succ_cons, List.take_succ_cons, List.take_zero,
          List.append_cons _ (Happening.tick _), Host.after_concat, Host.after_concat]
        exact twice
  · change 1 < ticks [.tick (surroundings 1), .tick (surroundings 1)]
    simp [ticks]

end ReVault.Transparent
