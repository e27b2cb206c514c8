import Mathlib.Tactic.Common

/-!
# A mailbox

Queries of many askers are queued for one answerer, who takes them one at a time; each asker
holds a ticket, under which its answer is left. What such a mailbox is for is a log of the
queries that were answered, with their answers, and a line of those that wait: no query is
lost, answered twice or answered out of turn.
-/

namespace ReVault.Foundation

variable {Query Answer : Type}

/-- The queries so far, with the answers that were left, and the tickets that are queued. -/
structure Mailbox (Query Answer : Type) where
  asked : List (Query × Option Answer)
  queue : List Nat

namespace Mailbox

/-- Nothing has been asked. -/
def empty : Mailbox Query Answer := ⟨[], []⟩

/-- A query is queued under a new ticket. -/
def ask (query : Query) (box : Mailbox Query Answer) : Mailbox Query Answer :=
  ⟨box.asked ++ [(query, none)], box.queue ++ [box.asked.length]⟩

/-- The query whose turn it is. -/
def next? (box : Mailbox Query Answer) : Option Query :=
  (box.queue.head?.bind fun ticket => box.asked[ticket]?).map Prod.fst

/-- The query whose turn it is gets its answer. -/
def answer (reply : Answer) (box : Mailbox Query Answer) : Mailbox Query Answer :=
  match box.queue with
  | [] => box
  | ticket :: queue => ⟨box.asked.modify ticket fun entry => (entry.1, some reply), queue⟩

/-- What was left under a ticket. -/
def answered? (ticket : Nat) (box : Mailbox Query Answer) : Option (Query × Answer) :=
  match box.asked[ticket]? with
  | some (query, some reply) => some (query, reply)
  | _ => none

/-! ## The log and the line -/

/-- A mailbox with the log of what was answered and the line of what waits. -/
structure Holds (box : Mailbox Query Answer) (done : List (Query × Answer))
    (waiting : List Query) : Prop where
  asked : box.asked = (done.map fun entry => (entry.1, some entry.2)) ++
    waiting.map fun query => (query, none)
  queue : box.queue = List.range' done.length waiting.length

/-- Nothing is done and nothing waits at first. -/
theorem holds_empty : (empty : Mailbox Query Answer).Holds [] [] := ⟨rfl, rfl⟩

namespace Holds

variable {box : Mailbox Query Answer} {done : List (Query × Answer)} {waiting : List Query}
  (holds : box.Holds done waiting)

include holds

/-- A query goes to the end of the line. -/
theorem ask (query : Query) : (box.ask query).Holds done (waiting ++ [query]) where
  asked := by simp [Mailbox.ask, holds.asked]
  queue := by simp [Mailbox.ask, holds.asked, holds.queue, List.range'_concat]

/-- It is the turn of the first in the line. -/
theorem next?_eq : box.next? = waiting.head? := by
  rw [next?, holds.queue, holds.asked]
  cases waiting with
  | nil => rfl
  | cons query later => simp [List.range'_succ]

/-- What has been answered is found under its ticket. -/
theorem answered?_eq (ticket : Nat) : box.answered? ticket = done[ticket]? := by
  rw [answered?, holds.asked]
  by_cases early : ticket < done.length
  · rw [List.getElem?_append_left (by simpa using early)]
    simp [early]
  · rw [List.getElem?_append_right (by simpa using early),
      List.getElem?_eq_none (Nat.le_of_not_lt early)]
    cases found : (waiting.map fun query => (query, (none : Option Answer)))[
      ticket - (done.map fun entry => (entry.1, some entry.2)).length]? with
    | none => rfl
    | some entry =>
        obtain ⟨query, _, rfl⟩ := List.mem_map.mp (List.mem_of_getElem? found)
        rfl

end Holds

/-- The first in the line is answered, and its answer goes to the end of the log. -/
theorem Holds.answer {box : Mailbox Query Answer} {done : List (Query × Answer)} {query : Query}
    {later : List Query} (holds : box.Holds done (query :: later)) (reply : Answer) :
    (box.answer reply).Holds (done ++ [(query, reply)]) later := by
  have turn : box.queue = done.length :: List.range' (done.length + 1) later.length := by
    rw [holds.queue, List.length_cons, List.range'_succ]
  unfold Mailbox.answer
  rw [turn]
  constructor
  · simp [holds.asked, List.modify_eq_take_drop]
  · simp

end Mailbox

end ReVault.Foundation
