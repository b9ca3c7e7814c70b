import Mathlib.Algebra.BigOperators.Group.List.Basic
import Mathlib.Data.List.DropRight
import Mathlib.Data.Nat.Notation
import Mathlib.Tactic.Ring
import OpenWhistle.Foundation.Machine

/-!
# The budget for uploads

A multipart request reserves its size before anything parses it, and gives it back when the
application is done with it, however that ends. One that does not fit is read to its end without
being parsed, and answered by a page that says to send it again. The process runs one request at a
time, from one wait to the next: the check and the reservation are one step, and so are the end of
the application and the release.

So the total is at any time the sum of what the requests inside the application hold, whatever their
order; a request is admitted within the capacity of its moment; and one that is not admitted never
gets to the application and never touches the total.
-/

set_option autoImplicit false
set_option relaxedAutoImplicit false

namespace OpenWhistle.Middleware

/-! ### Sizes -/

/-- 5 attachments of 10 MB and the rest of the form. -/
def maxBody : ℕ := 55 * 1024 * 1024

/-- Digits, in groups with an underscore between two of them, and no more than 4300. -/
def natural (text : List Char) : Option ℕ :=
  let groups := text.splitOn '_'
  let digits := groups.flatten
  if (groups.all fun group ↦ !group.isEmpty && group.all Char.isDigit) && decide (digits.length ≤ 4300)
  then some (digits.foldl (fun n c ↦ 10 * n + (c.toNat - 48)) 0)
  else none

def isBlank (c : Char) : Bool := decide (c = ' ' ∨ 9 ≤ c.toNat ∧ c.toNat ≤ 13)

/-- `int(text)` of bytes; `none` for the ValueError. -/
def int (text : List Char) : Option ℤ :=
  match (text.dropWhile isBlank).rdropWhile isBlank with
  | '-' :: rest => (natural rest).map fun n ↦ -(n : ℤ)
  | '+' :: rest => (natural rest).map Nat.cast
  | rest => (natural rest).map Nat.cast

example : int [' ', '1', '_', '0'] = some 10 := by decide +kernel

/-- A request, as the server hands it over. -/
structure Scope where
  isHttp : Bool
  headers : List (List Char × List Char)

/-- A header; of several of one name the last. Other connections have none. -/
def Scope.header (scope : Scope) (name : String) : List Char :=
  if scope.isHttp then (scope.headers.reverse.lookup name.toList).getD [] else []

def Scope.isMultipart (scope : Scope) : Bool :=
  "multipart/form-data".toList.isPrefixOf ((scope.header "content-type").map Char.toLower)

/-- What a request reserves. -/
def Scope.size (scope : Scope) : ℤ :=
  match int (scope.header "content-length") with
  | some n => min n maxBody
  | none => maxBody

/-- `_spool_capacity`, of the size of the filesystem. -/
def spoolCapacity (total : ℕ) : ℕ := total * 9 / 10

/-! ### The requests of one process -/

inductive Phase
  /-- Inside the application, with what was reserved for it. -/
  | serving (reserved : Option ℤ)
  /-- Read to the end of its body. -/
  | draining
  /-- The answer that it does not fit is on its way. -/
  | refusing
  | ended
  deriving DecidableEq

structure Task where
  phase : Phase
  /-- The application was called for it. -/
  reached : Bool
  deriving DecidableEq

/-- The middleware and the requests it was called for, in the order of the calls. -/
structure State where
  reserved : ℤ
  tasks : List Task
  deriving DecidableEq

def initial : State := ⟨0, []⟩

inductive Exit
  | returned
  | raised
  | cancelled
  deriving DecidableEq

/-- What happens from one wait to the next. -/
inductive Event
  /-- A request comes in; the filesystem has a size, or cannot be asked for it. -/
  | start (scope : Scope) (total : Option ℕ)
  /-- A request that does not fit gets a message, the last one or not. -/
  | receive (task : ℕ) (moreBody : Bool)
  /-- The wait of a request ends: for the application, for a message, for the answer. -/
  | leave (task : ℕ) (exit : Exit)

def Event.task : Event → Option ℕ
  | .start _ _ => none
  | .receive task _ => some task
  | .leave task _ => some task

/-- `UploadBudgetMiddleware.__call__`, up to its first wait. -/
def enter (s : State) (scope : Scope) (total : Option ℕ) : State :=
  if scope.isMultipart then
    match total with
    | none => { s with tasks := s.tasks ++ [⟨.ended, false⟩] }
    | some total =>
      if s.reserved + scope.size > spoolCapacity total then
        { s with tasks := s.tasks ++ [⟨.draining, false⟩] }
      else
        { reserved := s.reserved + scope.size
          tasks := s.tasks ++ [⟨.serving (some scope.size), true⟩] }
  else { s with tasks := s.tasks ++ [⟨.serving none, true⟩] }

def step (s : State) : Event → Option State
  | .start scope total => some (enter s scope total)
  | .receive i moreBody =>
    match s.tasks[i]? with
    | some ⟨.draining, reached⟩ =>
      some { s with tasks := s.tasks.set i ⟨if moreBody then .draining else .refusing, reached⟩ }
    | _ => none
  | .leave i exit =>
    match s.tasks[i]? with
    | some ⟨.serving reserved, reached⟩ =>
      some ⟨s.reserved - reserved.getD 0, s.tasks.set i ⟨.ended, reached⟩⟩
    | some ⟨.draining, reached⟩ =>
      if exit = .returned then none else some { s with tasks := s.tasks.set i ⟨.ended, reached⟩ }
    | some ⟨.refusing, reached⟩ => some { s with tasks := s.tasks.set i ⟨.ended, reached⟩ }
    | _ => none

/-! ### The total -/

/-- What a request has reserved and not given back. -/
def Task.held (task : Task) : ℤ :=
  match task.phase with
  | .serving reserved => reserved.getD 0
  | _ => 0

/-- What the requests inside the application have reserved. -/
def State.held (s : State) : ℤ := (s.tasks.map Task.held).sum

/-- A request comes in, and what it holds is added to the total; or one goes on, and what it held is
taken off. Whether the application is called for a request is settled where it comes in. -/
theorem step_cases {s t : State} {event : Event} (h : step s event = some t) :
    (∃ scope total task, event = .start scope total ∧ t.tasks = s.tasks ++ [task] ∧
      t.reserved = s.reserved + task.held ∧ (task.reached = false → task.held = 0)) ∨
    ∃ i task next, event.task = some i ∧ s.tasks[i]? = some task ∧ t.tasks = s.tasks.set i next ∧
      next.reached = task.reached ∧ next.held = 0 ∧ t.reserved = s.reserved - task.held := by
  cases event with
  | start scope total =>
    refine .inl ⟨scope, total, ?_⟩
    rw [← Option.some.inj h]
    unfold enter
    split_ifs with hmultipart
    · cases total with
      | none => exact ⟨⟨.ended, false⟩, rfl, rfl, (add_zero _).symm, fun _ ↦ rfl⟩
      | some total =>
        dsimp only
        split_ifs
        · exact ⟨⟨.draining, false⟩, rfl, rfl, (add_zero _).symm, fun _ ↦ rfl⟩
        · exact ⟨⟨.serving (some scope.size), true⟩, rfl, rfl, rfl, nofun⟩
    · exact ⟨⟨.serving none, true⟩, rfl, rfl, (add_zero _).symm, nofun⟩
  | receive i moreBody =>
    right
    unfold step at h
    dsimp only at h
    split at h
    · rename_i reached htask
      rw [← Option.some.inj h]
      refine ⟨i, _, _, rfl, htask, rfl, rfl, ?_, (sub_zero _).symm⟩
      cases moreBody <;> rfl
    · cases h
  | leave i exit =>
    right
    unfold step at h
    dsimp only at h
    split at h
    · rename_i reserved reached htask
      rw [← Option.some.inj h]
      exact ⟨i, _, _, rfl, htask, rfl, rfl, rfl, rfl⟩
    · rename_i reached htask
      split_ifs at h
      rw [← Option.some.inj h]
      exact ⟨i, _, _, rfl, htask, rfl, rfl, rfl, (sub_zero _).symm⟩
    · rename_i reached htask
      rw [← Option.some.inj h]
      exact ⟨i, _, _, rfl, htask, rfl, rfl, rfl, (sub_zero _).symm⟩
    · cases h

theorem sum_set {tasks : List Task} {i : ℕ} {task next : Task} (hi : tasks[i]? = some task)
    (hnext : next.held = 0) :
    ((tasks.set i next).map Task.held).sum = (tasks.map Task.held).sum - task.held := by
  obtain ⟨hlt, hget⟩ := List.getElem?_eq_some_iff.mp hi
  obtain ⟨before, after, htasks, -, hset⟩ := @List.exists_of_set Task i next tasks hlt
  rw [hget] at htasks
  rw [hset, htasks]
  simp only [List.map_append, List.map_cons, List.sum_append, List.sum_cons, hnext]
  ring

/-- The total is what the requests inside the application hold; the others hold nothing. -/
structure Balanced (s : State) : Prop where
  total : s.reserved = s.held
  outside : ∀ task ∈ s.tasks, task.reached = false → task.held = 0

theorem balanced_initial : Balanced initial := ⟨rfl, nofun⟩

theorem balanced_step {s t : State} {event : Event} (hs : Balanced s)
    (h : step s event = some t) : Balanced t := by
  rcases step_cases h with ⟨scope, total, task, -, htasks, hreserved, hheld⟩ |
    ⟨i, task, next, -, htask, htasks, hreached, hheld, hreserved⟩
  · constructor
    · rw [hreserved, hs.total, State.held, State.held, htasks, List.map_append, List.sum_append,
        List.map_singleton, List.sum_singleton]
    · intro other hother
      rw [htasks] at hother
      rcases List.mem_append.mp hother with hold | hnew
      · exact hs.outside other hold
      · rw [List.mem_singleton.mp hnew]
        exact hheld
  · constructor
    · rw [hreserved, hs.total, State.held, State.held, htasks, sum_set htask hheld]
    · intro other hother
      rw [htasks] at hother
      rcases List.mem_or_eq_of_mem_set hother with hold | rfl
      · exact hs.outside other hold
      · exact fun _ ↦ hheld

theorem balanced_run {s : State} {events : List Event}
    (h : Machine.run step initial events = some s) : Balanced s :=
  Machine.run_invariant_of_step (fun _ _ _ hs hstep ↦ balanced_step hs hstep) balanced_initial h

/-! ### Requests that do not fit -/

/-- The application was not called for a request. -/
def Outside (i : ℕ) (s : State) : Prop := ∃ task, s.tasks[i]? = some task ∧ task.reached = false

theorem outside_step {s t : State} {event : Event} {i : ℕ} (hs : Outside i s)
    (h : step s event = some t) : Outside i t := by
  obtain ⟨task, htask, hreached⟩ := hs
  rcases step_cases h with ⟨scope, total, other, -, htasks, -⟩ |
    ⟨j, other, next, -, hother, htasks, hnext, -⟩
  · refine ⟨task, ?_, hreached⟩
    rw [htasks, List.getElem?_append_left (List.getElem?_eq_some_iff.mp htask).1]
    exact htask
  · by_cases hj : j = i
    · subst hj
      rw [htask] at hother
      rw [← Option.some.inj hother, hreached] at hnext
      refine ⟨next, ?_, hnext⟩
      rw [htasks, List.getElem?_set_self (List.getElem?_eq_some_iff.mp htask).1]
    · refine ⟨task, ?_, hreached⟩
      rw [htasks, List.getElem?_set_ne hj]
      exact htask

/-- What happens to a request outside the application leaves the total. -/
theorem reserved_of_outside {s t : State} {event : Event} {i : ℕ} (hs : Balanced s)
    (houtside : Outside i s) (hevent : event.task = some i) (h : step s event = some t) :
    t.reserved = s.reserved := by
  obtain ⟨task, htask, hreached⟩ := houtside
  rcases step_cases h with ⟨scope, total, other, rfl, -⟩ |
    ⟨j, other, next, hj, hother, -, -, -, hreserved⟩
  · cases hevent
  · rw [hevent] at hj
    rw [← Option.some.inj hj, htask] at hother
    have hheld := hs.outside task (List.mem_of_getElem? htask) hreached
    rw [hreserved, ← Option.some.inj hother, hheld, sub_zero]

/-- A multipart request is admitted within the capacity, or it stays outside and adds nothing. -/
theorem admit_cases (s : State) {scope : Scope} (total : ℕ) (hmultipart : scope.isMultipart = true) :
    (s.reserved + scope.size ≤ spoolCapacity total ∧
      (enter s scope (some total)).reserved = s.reserved + scope.size ∧
      (enter s scope (some total)).tasks[s.tasks.length]? =
        some ⟨.serving (some scope.size), true⟩) ∨
    (spoolCapacity total < s.reserved + scope.size ∧
      (enter s scope (some total)).reserved = s.reserved ∧
      Outside s.tasks.length (enter s scope (some total))) := by
  unfold enter
  rw [if_pos hmultipart]
  dsimp only
  split_ifs with hfits
  · exact .inr ⟨hfits, rfl, ⟨.draining, false⟩, List.getElem?_concat_length, rfl⟩
  · exact .inl ⟨not_lt.mp hfits, rfl, List.getElem?_concat_length⟩

/-- In whatever order requests come in and end: the total is what the multipart requests inside the
application have reserved, and nothing when every request has ended. A request is admitted within
the capacity of its moment. One that is not adds nothing to the total, is never inside the
application later on, and nothing that happens to it changes the total. -/
theorem upload_budget_is_exact {events : List Event} {s : State}
    (hrun : Machine.run step initial events = some s) :
    s.reserved = (s.tasks.map Task.held).sum ∧
    ((∀ task ∈ s.tasks, task.phase = .ended) → s.reserved = 0) ∧
    ∀ (scope : Scope) (total : ℕ), scope.isMultipart = true →
      (s.reserved + scope.size ≤ spoolCapacity total ∧
        (enter s scope (some total)).reserved = s.reserved + scope.size ∧
        (enter s scope (some total)).tasks[s.tasks.length]? =
          some ⟨.serving (some scope.size), true⟩) ∨
      (spoolCapacity total < s.reserved + scope.size ∧
        (enter s scope (some total)).reserved = s.reserved ∧
        ∀ later last, Machine.run step (enter s scope (some total)) later = some last →
          Outside s.tasks.length last ∧
          ∀ event next, event.task = some s.tasks.length → step last event = some next →
            next.reserved = last.reserved) := by
  have hbalanced := balanced_run hrun
  refine ⟨hbalanced.total, fun hended ↦ ?_, fun scope total hmultipart ↦ ?_⟩
  · rw [hbalanced.total, State.held]
    refine List.sum_eq_zero fun held hheld ↦ ?_
    obtain ⟨task, htask, rfl⟩ := List.mem_map.mp hheld
    rw [Task.held, hended task htask]
  · rcases admit_cases s total hmultipart with hfits | ⟨hfull, hreserved, houtside⟩
    · exact .inl hfits
    · refine .inr ⟨hfull, hreserved, fun later last hlater ↦ ?_⟩
      have hstart : step s (.start scope (some total)) = some (enter s scope (some total)) := rfl
      have hlast : Balanced last := Machine.run_invariant_of_step
        (fun _ _ _ ht hstep ↦ balanced_step ht hstep) (balanced_step hbalanced hstart) hlater
      have hout : Outside s.tasks.length last := Machine.run_invariant_of_step
        (fun _ _ _ ht hstep ↦ outside_step ht hstep) houtside hlater
      exact ⟨hout, fun event next hevent hstep ↦ reserved_of_outside hlast hout hevent hstep⟩

/-- An upload of six megabytes. -/
def upload : Scope where
  isHttp := true
  headers := [("content-type".toList, "multipart/form-data; boundary=x".toList),
    ("content-length".toList, "6000000".toList)]

/-- Two uploads at once in ten megabytes: the second is read to its end and refused. -/
def twoUploads : List Event :=
  [.start upload (some 10000000), .start upload (some 10000000), .receive 1 true, .receive 1 false,
    .leave 1 .returned]

theorem budget_of_two_uploads : ∃ s, Machine.run step initial twoUploads = some s ∧
    s.reserved = 6000000 ∧ s.reserved = (s.tasks.map Task.held).sum := by
  have hrun : Machine.run step initial twoUploads =
      some ⟨6000000, [⟨.serving (some 6000000), true⟩, ⟨.ended, false⟩]⟩ := by decide +kernel
  exact ⟨_, hrun, rfl, (upload_budget_is_exact hrun).1⟩

end OpenWhistle.Middleware
