import OpenWhistle.Foundation.Contract
import OpenWhistle.Submission.Submit

/-!
# The contract between the requests of one session

From its first save on, the draft carries one report id. Every request keeps it that way: what it
loads carries the id, what it saves, gives back or inserts does too. That alone bounds the reports
of the session, in every interleaving.

Two further clauses can be added to the contract. With `truthful`, a stored result and a success page
name the case number of the committed report with that id, and no PIN but its own; this holds as
long as no failed submit finds, under the id, the very case number it drew itself with the PIN hash
of another. With `keeps`, a report with the id is committed or one of the two draft keys holds the
draft; this holds as long as nobody starts again and no expiry takes the last copy.

What all requests rely on is the same relation, `Grows`: rows of the table stay, and so does the row
of a transaction.
-/

set_option autoImplicit false
set_option relaxedAutoImplicit false

namespace OpenWhistle.Submission

open Interleaving

/-! ### The contract -/

/-- Which of the two further clauses are part of the contract. -/
structure Terms where
  truthful : Prop
  keeps : Prop

/-- A report with the id is committed. -/
def HasReport (id : ReportId) (s : Session) : Prop := ∃ row ∈ s.reports.rows, row.id = id

/-- A result tells the truth about the committed report with the id. -/
def Shows (id : ReportId) (s : Session) (result : Result) : Prop :=
  ∃ row ∈ s.reports.rows, row.id = id ∧ row.caseNumber = result.caseNumber ∧
    ∀ pin, result.pin = some pin → row.pinHash = hashPin pin

/-- The report committed under the id has the case number a submit drew itself only with the PIN
hash of that submit. -/
def Unambiguous (id : ReportId) (s : Session) (own : Report) : Prop :=
  ∀ row ∈ s.reports.rows, row.id = id → row.caseNumber = own.caseNumber → row.pinHash = own.pinHash

/-- An expiry leaves a copy of the draft, or its report is committed. -/
def LeavesCopy (id : ReportId) (s : Session) (key : Key) : Prop :=
  HasReport id s ∨ (s.keys.expire key).Holds

/-- The invariant of the session. -/
structure Custody (id : ReportId) (terms : Terms) (s : Session) : Prop where
  carries : s.keys.CarryId id
  minted : id ∈ s.minted
  inserted : ∀ entry ∈ s.inserted, entry.2.id = id
  landed : ∀ w row, s.rowOf w = some row → s.transaction w = .committed → row ∈ s.reports.rows
  result : terms.truthful → ∀ result, s.keys.result = some result → Shows id s result
  kept : terms.keeps → HasReport id s ∨ s.keys.Holds

variable {id : ReportId} {terms : Terms}

theorem HasReport.grows {s t : Session} (h : HasReport id s) (hgrows : Grows s t) :
    HasReport id t := by
  obtain ⟨row, hrow, hid⟩ := h
  exact ⟨row, hgrows.rows row hrow, hid⟩

theorem Shows.grows {s t : Session} {result : Result} (h : Shows id s result)
    (hgrows : Grows s t) : Shows id t result := by
  obtain ⟨row, hrow, hrest⟩ := h
  exact ⟨row, hgrows.rows row hrow, hrest⟩

theorem Shows.hasReport {s : Session} {result : Result} (h : Shows id s result) :
    HasReport id s := by
  obtain ⟨row, hrow, hid, -⟩ := h
  exact ⟨row, hrow, hid⟩

/-- A result without a PIN tells the truth as soon as its case number does. -/
theorem shows_received {s : Session} {row : Report} (hrow : row ∈ s.reports.rows)
    (hid : row.id = id) : Shows id s (received row.caseNumber) :=
  ⟨row, hrow, hid, rfl, by simp [received]⟩

/-- A step that leaves the keys alone keeps what the invariant says about them. -/
theorem Custody.of_keys_eq {s t : Session} (h : Custody id terms s) (hgrows : Grows s t)
    (hkeys : t.keys = s.keys) (hminted : id ∈ t.minted)
    (hinserted : ∀ entry ∈ t.inserted, entry.2.id = id)
    (hlanded : ∀ w row, t.rowOf w = some row → t.transaction w = .committed →
      row ∈ t.reports.rows) : Custody id terms t where
  carries := hkeys ▸ h.carries
  minted := hminted
  inserted := hinserted
  landed := hlanded
  result := fun htruthful result hresult ↦
    (h.result htruthful result (hkeys ▸ hresult)).grows hgrows
  kept := fun hkeeps ↦ (h.kept hkeeps).imp (fun hreport ↦ hreport.grows hgrows) (hkeys ▸ ·)

/-- A step that only changes the keys. -/
theorem Custody.with_keys {s t : Session} (h : Custody id terms s)
    (hreports : t.reports = s.reports) (hinserted : t.inserted = s.inserted)
    (htransaction : t.transaction = s.transaction) (hminted : id ∈ t.minted)
    (hcarries : t.keys.CarryId id)
    (hresult : terms.truthful → ∀ result, t.keys.result = some result → Shows id s result)
    (hkept : terms.keeps → HasReport id s ∨ t.keys.Holds) : Custody id terms t where
  carries := hcarries
  minted := hminted
  inserted := hinserted ▸ h.inserted
  landed := by
    intro w row hrow hcommitted
    rw [Session.rowOf, hinserted] at hrow
    rw [htransaction] at hcommitted
    rw [hreports]
    exact h.landed w row hrow hcommitted
  result := fun htruthful result hr ↦
    (hresult htruthful result hr).grows (Grows.of_eq hreports hinserted)
  kept := fun hkeeps ↦
    (hkept hkeeps).imp (fun hreport ↦ hreport.grows (Grows.of_eq hreports hinserted))
      fun hholds ↦ hholds

/-- A transaction's status changes to one that is not committed. -/
theorem Custody.with_transaction {s : Session} (h : Custody id terms s) (w : ℕ)
    {status : Transaction} (hstatus : status ≠ .committed) :
    Custody id terms { s with transaction := Function.update s.transaction w status } := by
  refine h.of_keys_eq (Grows.of_eq rfl rfl) rfl h.minted h.inserted fun v row hrow hcommitted ↦ ?_
  change Function.update s.transaction w status v = Transaction.committed at hcommitted
  by_cases hv : v = w
  · subst hv
    rw [Function.update_self] at hcommitted
    exact absurd hcommitted hstatus
  · rw [Function.update_of_ne hv] at hcommitted
    exact h.landed v row hrow hcommitted

/-- What the environment may do: anything, except for taking the last copy of a draft that is to be
kept. -/
def Tolerates (id : ReportId) (terms : Terms) : Change → Session → Prop
  | .expire key, s => terms.keeps → LeavesCopy id s key
  | _, _ => True

theorem custody_environment {change : Change} {s t : Session} (h : Custody id terms s)
    (htolerates : Tolerates id terms change s) (hchange : environment change s = some t) :
    Custody id terms t := by
  have hgrows := grows_environment hchange
  cases change with
  | expire key =>
    cases hchange
    refine h.with_keys rfl rfl rfl h.minted (h.carries.expire key) (fun htruthful ↦ ?_) htolerates
    intro result hresult
    apply h.result htruthful result
    cases key with
    | result => exact nomatch hresult
    | _ => exact hresult
  | land w =>
    obtain ⟨row, hfresh, hrow, rfl⟩ := land_cases hchange
    refine h.of_keys_eq hgrows rfl h.minted h.inserted fun v other hother hcommitted ↦ ?_
    change Function.update s.transaction w .committed v = Transaction.committed at hcommitted
    by_cases hv : v = w
    · subst hv
      have heq : other = row := Option.some.inj (hother.symm.trans hrow)
      exact heq ▸ List.mem_cons_self
    · rw [Function.update_of_ne hv] at hcommitted
      exact List.mem_cons_of_mem row (h.landed v other hother hcommitted)
  | abort w =>
    obtain ⟨-, rfl⟩ := abort_cases hchange
    exact h.with_transaction w (by decide)
  | otherReport row =>
    obtain ⟨-, hfresh, rfl⟩ := otherReport_cases hchange
    exact h.of_keys_eq hgrows rfl h.minted h.inserted fun v other hother hcommitted ↦
      List.mem_cons_of_mem row (h.landed v other hother hcommitted)

/-- The answer to a lookup that is compared with a worker's own row has to be unambiguous. -/
def Trusts (id : ReportId) (terms : Terms) (operation : Op) (s : Session) : Prop :=
  terms.truthful → ∀ own ∈ operation.ours, Unambiguous id s own

/-- What is promised of a page. -/
def PageHolds (id : ReportId) (terms : Terms) : Page → Session → Prop
  | .success result, s => terms.truthful → Shows id s result
  | _, _ => True

theorem PageHolds.grows {page : Page} {s t : Session} (h : PageHolds id terms page s)
    (hgrows : Grows s t) : PageHolds id terms page t := by
  cases page with
  | success result => exact fun htruthful ↦ (h htruthful).grows hgrows
  | _ => trivial

def custody (id : ReportId) (terms : Terms) : Contract semantics Request Page where
  invariant := Custody id terms
  rely _ := Grows
  rely_refl _ := Grows.refl
  rely_trans _ _ _ _ := Grows.trans
  idle _ _ := True
  idle_stable _ _ _ _ _ _ := trivial
  ends _ := Returns (PageHolds id terms)
  ends_stable := by
    intro _ result s t hends hgrows _
    cases result with
    | ok page => exact PageHolds.grows hends hgrows
    | error exception => trivial
  admits request := terms.keeps → request ≠ .restart
  allows _ _ _ := True
  trusts _ := Trusts id terms
  tolerates := Tolerates id terms
  environment_safe := fun _ _ _ hinv htolerates hchange ↦
    ⟨custody_environment hinv htolerates hchange, fun _ ↦ grows_environment hchange⟩

/-! ### One operation -/

variable {w : ℕ}

/-- An operation that keeps the invariant, and what its reply is worth. -/
theorem safe_call {operation : Op} {promise : Reply operation → Session → Prop} {s : Session}
    (h : ∀ t, Grows s t → Custody id terms t → ∀ draw reply u,
      perform w operation draw t = some (reply, u) → Custody id terms u ∧
        (Trusts id terms operation t → ∀ value, reply = .ok value → promise value u)) :
    Safe (custody id terms) w (Returns promise) (call operation) s := by
  refine Safe.call fun t hgrows hinv ↦ ⟨fun _ ↦ trivial, fun _ draw reply u hperform ↦ ?_⟩
  obtain ⟨hinv', hpromise⟩ := h t hgrows hinv draw reply u hperform
  refine ⟨hinv', fun _ _ ↦ grows_perform hperform, fun htrusts ↦ ?_, fun _ ↦ trivial⟩
  cases reply with
  | ok value => exact hpromise htrusts value rfl
  | error exception => trivial

/-- An operation that only reads. -/
theorem safe_read {operation : Op} {promise : Reply operation → Session → Prop} {s : Session}
    (hread : ∀ draw t reply u, perform w operation draw t = some (reply, u) → u = t)
    (h : ∀ t, Grows s t → Custody id terms t → Trusts id terms operation t →
      ∀ draw value, perform w operation draw t = some (.ok value, t) → promise value t) :
    Safe (custody id terms) w (Returns promise) (call operation) s := by
  refine safe_call fun t hgrows hinv draw reply u hperform ↦ ?_
  obtain rfl := hread draw t reply u hperform
  refine ⟨hinv, fun htrusts value hvalue ↦ ?_⟩
  subst hvalue
  exact h u hgrows hinv htrusts draw value hperform

/-- What is known of the table and the inserted rows is still known after a part of a handler. -/
theorem safe_grows {β : Type} {post : Except Exn β → Session → Prop} {program : Handler β}
    {s : Session} (h : Safe (custody id terms) w post program s) :
    Safe (custody id terms) w (fun result t ↦ post result t ∧ Grows s t) program s :=
  Safe.frame (fun _ _ hst htu ↦ hst.trans htu)
    (fun _ _ _ _ _ hst hperform ↦ hst.trans (grows_perform hperform)) (Grows.refl s) h

/-- Sequencing, with what has grown meanwhile. -/
theorem safe_then {β γ : Type} {promise : β → Session → Prop} {post : γ → Session → Prop}
    {rest : β → Handler γ} {program : Handler β} {s : Session}
    (h : Safe (custody id terms) w (Returns promise) program s)
    (hrest : ∀ value t, Grows s t → promise value t →
      Safe (custody id terms) w (Returns post) (rest value) t) :
    Safe (custody id terms) w (Returns post) (program >>= rest) s := by
  have hgrown : Safe (custody id terms) w (Returns fun value t ↦ promise value t ∧ Grows s t)
      program s := by
    refine Safe.imp (fun result t hresult ↦ ?_) (safe_grows h)
    cases result with
    | ok value => exact hresult
    | error exception => trivial
  exact Safe.andThen hgrown fun value t hvalue ↦ hrest value t hvalue.2 hvalue.1

end OpenWhistle.Submission
