import ReVault.Tui.Bridge

/-!
# Requests of peers

The interface and its network thread take turns in any order. Each peer that reports its position
while a session runs waits for its turn, and is answered once, from the vault as it is at that
moment. What a session has done is a log of the requests that were answered and a line of those
that wait.
-/

namespace ReVault.Tui

open Foundation Primitives

variable [Primitives]

/-! ## The steps of the thread -/

namespace Bridge

variable (text : VaultError → String) (bridge : Bridge)

/-- A peer that connects waits for its turn, or something is reported. -/
theorem connect_eq (ephemeral : ByteArr 32) (stream : Stream) :
    (∃ connection : Connection, Reports ephemeral bridge.identity stream connection.peerId
        connection.nextSeq connection.channel ∧
      bridge.connect text ephemeral stream =
        { bridge with mailbox := bridge.mailbox.ask connection }) ∨
      ∃ events, bridge.connect text ephemeral stream = { bridge with events := events } := by
  unfold connect
  split
  · exact Or.inr ⟨_, rfl⟩
  · rename_i channel peerId reached shaken
    split
    · exact Or.inr ⟨_, rfl⟩
    · rename_i nextSeq final read
      obtain ⟨bytes, lastHash, received, decoded⟩ := readPosition_eq_ok_iff.mp read
      exact Or.inl ⟨⟨final, peerId, nextSeq⟩,
        ⟨channel, reached, bytes, lastHash, shaken, received, decoded⟩, rfl⟩

/-- The request that a peer makes. -/
theorem connect_of_reports {ephemeral : ByteArr 32} {stream : Stream} {connection : Connection}
    (reports : Reports ephemeral bridge.identity stream connection.peerId connection.nextSeq
      connection.channel) :
    bridge.connect text ephemeral stream =
      { bridge with mailbox := bridge.mailbox.ask connection } := by
  obtain ⟨channel, reached, bytes, lastHash, shaken, received, decoded⟩ := reports
  have read := readPosition_eq_ok_iff.mpr ⟨bytes, lastHash, received, decoded⟩
  simp only [connect, shaken, read]

/-- A connection that takes its answer sends what is due, or has nothing to take. -/
theorem finish_eq (ticket : Nat) :
    (∃ connection response events, bridge.mailbox.answered? ticket = some (connection, response) ∧
      bridge.finish text ticket = { bridge with
        sent := Function.update bridge.sent ticket
          (some (finalState
            (deliver connection.peerId (.ok response) connection.channel)).stream)
        events := events }) ∨
      bridge.finish text ticket = bridge := by
  unfold finish
  split
  · rename_i connection response answered _
    refine Or.inl ⟨connection, response, ?_⟩
    split
    · rename_i peerId channel delivered
      exact ⟨bridge.events ++ [.synced peerId], answered, by simp only [finalState, delivered]⟩
    · rename_i error channel delivered
      exact ⟨bridge.events ++ report text error, answered,
        by simp only [finalState, delivered]⟩
  · exact Or.inr rfl

end Bridge

variable {SocketAddr : Type} [SocketAddress SocketAddr]

omit [SocketAddress SocketAddr] in
/-- A tick while a vault is served answers the request that it finds. -/
theorem App.tick_of_active {app : App} {state : UnlockedState} {journal : PatchJournal}
    (env : Environment SocketAddr) (disk : FileSystem) (polled : Polled)
    (unlocked : app.vaults.mode = .unlocked state) (serving : state.network = some journal)
    (active : env.now - state.lastActivity < defaultTimeout) :
    (app.tick env disk polled).2 = polled.request.map fun request =>
      ReVault.pollNetwork state.vault journal request.1 request.2 := by
  rw [tick, unlocked]
  simp [Nat.not_le.mpr active, UnlockedState.pollNetwork, serving]

/-! ## Sessions -/

/-- A request: the turn in which its peer connected, and with what. -/
structure Request where
  asked : Nat
  ephemeral : ByteArr 32
  stream : Stream
  connection : Connection

/-- A request that was answered, and in which turn. -/
structure Served extends Request where
  answered : Nat
  response : SyncResponse

/-- What a connection sends with its answer. -/
def Served.sends (served : Served) : Stream :=
  (finalState (deliver served.connection.peerId (.ok served.response)
    served.connection.channel)).stream

/-- The request was made in the run. -/
structure Request.Made (happenings : List (Happening SocketAddr)) (identity : Identity)
    (request : Request) : Prop where
  connects : happenings[request.asked]? = some (.connects request.ephemeral request.stream)
  reports : Reports request.ephemeral identity request.stream request.connection.peerId
    request.connection.nextSeq request.connection.channel

/-- The answer was given in the run, from the vault as it was then. -/
structure Served.Answers (text : VaultError → String) (start : Host)
    (happenings : List (Happening SocketAddr)) (served : Served) : Prop where
  later : served.asked < served.answered
  ticks : ∃ env, happenings[served.answered]? = some (.tick env)
  answers : ∃ state journal,
    (Host.after text (happenings.take served.answered) start).app.vaults.mode = .unlocked state ∧
      state.network = some journal ∧ served.response = ReVault.pollNetwork state.vault journal
        served.connection.peerId served.connection.nextSeq

/-- A session: the turn in which it began, the requests that were answered and those that wait. -/
structure ServingSession (text : VaultError → String) (start : Host)
    (happenings : List (Happening SocketAddr)) (bridge : Bridge) (began : Nat)
    (done : List Served) (waiting : List Request) : Prop where
  recent : began ≤ happenings.length
  lasts : ∀ turn, began ≤ turn → turn ≤ happenings.length →
    (Host.after text (happenings.take turn) start).app.vaults.serves = true
  holds : bridge.mailbox.Holds (done.map fun served => (served.connection, served.response))
    (waiting.map Request.connection)
  made : ∀ request ∈ done.map Served.toRequest ++ waiting,
    began ≤ request.asked ∧ request.Made happenings bridge.identity
  inOrder : (done.map Served.toRequest ++ waiting).Pairwise (·.asked < ·.asked)
  answers : ∀ served ∈ done, served.Answers text start happenings
  inTurn : done.Pairwise (·.answered < ·.answered)
  sent : ∀ ticket stream, bridge.sent ticket = some stream →
    ∃ served, done[ticket]? = some served ∧ stream = served.sends

omit [Primitives] [SocketAddress SocketAddr] in
/-- What has happened stays. -/
theorem happened_append {happenings : List (Happening SocketAddr)} {turn : Nat}
    {happening : Happening SocketAddr} (happened : happenings[turn]? = some happening)
    (next : Happening SocketAddr) :
    turn < happenings.length ∧ (happenings ++ [next])[turn]? = some happening := by
  obtain ⟨early, _⟩ := List.getElem?_eq_some_iff.mp happened
  exact ⟨early, (List.getElem?_append_left early).trans happened⟩

namespace ServingSession

variable {text : VaultError → String} {start : Host} {happenings : List (Happening SocketAddr)}
  {bridge : Bridge} {began : Nat} {done : List Served} {waiting : List Request}

/-- A session that begins. -/
theorem begins {happening : Happening SocketAddr} (identity : Identity)
    (serves : (Host.after text (happenings ++ [happening]) start).app.vaults.serves = true) :
    ServingSession text start (happenings ++ [happening]) (Bridge.start identity)
      (happenings ++ [happening]).length [] [] where
  recent := Nat.le_refl _
  lasts := by
    intro turn early late
    rw [Nat.le_antisymm late early, List.take_length]
    exact serves
  holds := Mailbox.holds_empty
  made := by simp
  inOrder := List.Pairwise.nil
  answers := by simp
  inTurn := List.Pairwise.nil
  sent := by simp [Bridge.start]

variable (session : ServingSession text start happenings bridge began done waiting)

include session

/-- Another turn in which the vault stays served. -/
theorem append {happening : Happening SocketAddr}
    (serves : (Host.after text (happenings ++ [happening]) start).app.vaults.serves = true) :
    ServingSession text start (happenings ++ [happening]) bridge began done waiting where
  recent := by
    rw [List.length_append]
    exact Nat.le_add_right_of_le session.recent
  lasts := by
    intro turn early late
    rcases Nat.lt_or_ge happenings.length turn with last | before
    · rw [List.take_of_length_le (by rw [List.length_append]; exact last)]
      exact serves
    · rw [List.take_append_of_le_length before]
      exact session.lasts turn early before
  holds := session.holds
  made := by
    intro request member
    obtain ⟨early, made⟩ := session.made request member
    exact ⟨early, (happened_append made.connects happening).2, made.reports⟩
  inOrder := session.inOrder
  answers := by
    intro served member
    obtain ⟨later, ⟨env, ticks⟩, answers⟩ := session.answers served member
    obtain ⟨early, kept⟩ := happened_append ticks happening
    refine ⟨later, ⟨env, kept⟩, ?_⟩
    rw [List.take_append_of_le_length early.le]
    exact answers
  inTurn := session.inTurn
  sent := session.sent

/-- Reports change nothing else. -/
theorem reports (events : List BridgeEvent) :
    ServingSession text start happenings { bridge with events := events } began done waiting :=
  ⟨session.recent, session.lasts, session.holds, session.made, session.inOrder, session.answers,
    session.inTurn, session.sent⟩

/-- A request goes to the end of the line. -/
theorem asks {ephemeral : ByteArr 32} {stream : Stream} {connection : Connection}
    (reports : Reports ephemeral bridge.identity stream connection.peerId connection.nextSeq
      connection.channel)
    (serves : (Host.after text (happenings ++ [.connects ephemeral stream]) start).app.vaults.serves
      = true) :
    ServingSession text start (happenings ++ [.connects ephemeral stream])
      { bridge with mailbox := bridge.mailbox.ask connection } began done
      (waiting ++ [⟨happenings.length, ephemeral, stream, connection⟩]) := by
  have next := session.append serves
  refine ⟨next.recent, next.lasts, ?_, ?_, ?_, next.answers, next.inTurn, next.sent⟩
  · rw [List.map_append]
    exact session.holds.ask connection
  · intro request member
    rw [← List.append_assoc, List.mem_append] at member
    rcases member with earlier | last
    · exact next.made request earlier
    · obtain rfl := List.mem_singleton.mp last
      exact ⟨session.recent, by simp, reports⟩
  · rw [← List.append_assoc, List.pairwise_append]
    refine ⟨session.inOrder, List.pairwise_singleton _ _, ?_⟩
    intro request earlier last isLast
    obtain rfl := List.mem_singleton.mp isLast
    exact (happened_append (session.made request earlier).2.connects (.finishes 0)).1

/-- A connection that takes its answer. -/
theorem takes {ticket : Nat} {connection : Connection} {response : SyncResponse}
    (answered : bridge.mailbox.answered? ticket = some (connection, response))
    (events : List BridgeEvent) :
    ServingSession text start happenings
      { bridge with
        sent := Function.update bridge.sent ticket
          (some (finalState
            (deliver connection.peerId (.ok response) connection.channel)).stream)
        events := events } began done waiting := by
  refine ⟨session.recent, session.lasts, session.holds, session.made, session.inOrder,
    session.answers, session.inTurn, ?_⟩
  rw [session.holds.answered?_eq, List.getElem?_map] at answered
  intro other stream sent
  by_cases same : other = ticket
  · subst same
    simp only [Function.update_self, Option.some.injEq] at sent
    cases found : done[other]? with
    | none =>
        rw [found] at answered
        cases answered
    | some served =>
        rw [found] at answered
        cases answered
        exact ⟨served, rfl, sent.symm⟩
  · simp only [Function.update_of_ne same] at sent
    exact session.sent other stream sent

end ServingSession

/-- The first in the line is answered from the vault as it is. -/
theorem ServingSession.answered {text : VaultError → String} {start : Host}
    {happenings : List (Happening SocketAddr)} {bridge : Bridge} {began : Nat}
    {done : List Served} {request : Request} {waiting : List Request}
    (session : ServingSession text start happenings bridge began done (request :: waiting))
    {env : Environment SocketAddr} {state : UnlockedState} {journal : PatchJournal}
    (unlocked : (Host.after text happenings start).app.vaults.mode = .unlocked state)
    (serving : state.network = some journal)
    (serves : (Host.after text (happenings ++ [.tick env]) start).app.vaults.serves = true) :
    let response := ReVault.pollNetwork state.vault journal request.connection.peerId
      request.connection.nextSeq
    ServingSession text start (happenings ++ [.tick env])
      { bridge with events := [], mailbox := bridge.mailbox.answer response } began
      (done ++ [⟨request, happenings.length, response⟩]) waiting := by
  intro response
  have next := session.append serves
  have made := session.made request (by simp)
  have asked := (happened_append made.2.connects (.finishes 0)).1
  have queue : done.map Served.toRequest ++ request :: waiting =
      (done ++ [(⟨request, happenings.length, response⟩ : Served)]).map Served.toRequest ++
        waiting := by
    simp
  have answers : Served.Answers text start (happenings ++ [.tick env])
      ⟨request, happenings.length, response⟩ := by
    refine ⟨asked, ⟨env, by simp⟩, state, journal, ?_, serving, rfl⟩
    rw [List.take_append_of_le_length (Nat.le_refl _), List.take_length]
    exact unlocked
  refine ⟨next.recent, next.lasts, ?_, ?_, ?_, ?_, ?_, ?_⟩
  · rw [List.map_append]
    exact session.holds.answer response
  · rw [← queue]
    exact next.made
  · rw [← queue]
    exact next.inOrder
  · intro served member
    rcases List.mem_append.mp member with earlier | last
    · exact next.answers served earlier
    · obtain rfl := List.mem_singleton.mp last
      exact answers
  · rw [List.pairwise_append]
    refine ⟨session.inTurn, List.pairwise_singleton _ _, ?_⟩
    intro served earlier last isLast
    obtain rfl := List.mem_singleton.mp isLast
    obtain ⟨_, ticks⟩ := (session.answers served earlier).ticks
    exact (happened_append ticks (.finishes 0)).1
  · intro ticket stream sent
    obtain ⟨served, found, sends⟩ := session.sent ticket stream sent
    obtain ⟨early, _⟩ := List.getElem?_eq_some_iff.mp found
    exact ⟨served, (List.getElem?_append_left early).trans found, sends⟩

end ReVault.Tui
