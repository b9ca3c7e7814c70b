import OpenWhistle.Identity.Contract

/-!
# The routes keep their promises

A decrypted name or contact gets into a response in two places: the page after a reveal, and the PDF
that includes the identity. Both come after the commit of a transaction that holds the audit entry of
the reveal, inserted by the account that passed both checks on the report it had read. This is the
walk through the five routes that shows it, one operation at a time.
-/

set_option autoImplicit false
set_option relaxedAutoImplicit false
set_option linter.unusedSectionVars false

namespace OpenWhistle.Identity

open Interleaving ReadCommitted
open Accounts (AdminUser AdminRole UserId)
open Access (Placement canAccessReport canRevealIdentity)

variable {ι : Type} [DecidableEq ι] {exclusive : Prop} {multiTenancyEnabled : Bool}
  {fernet : Fernet} {s t : Vault ι} {w : ℕ}

/-! ### What a response shows -/

/-- A page without an identity shows none, whatever else it shows. -/
theorem not_discloses_page {page : PageContext} (h : page.identity = none) :
    ¬(Answer.page page).Discloses := by
  rintro ⟨text, hmem⟩
  simp only [Answer.cells, PageContext.cells, h] at hmem
  split_ifs at hmem <;> simp at hmem

/-- A PDF without the identity shows none. -/
theorem not_discloses_pdf (filename : String) (read : Loaded) :
    ¬(Answer.pdf filename (generateReportPdf fernet read false)).Discloses := by
  rintro ⟨text, hmem⟩
  obtain ⟨report, assignedTo⟩ := read
  cases assignedTo <;> simp [Answer.cells, generateReportPdf] at hmem

theorem not_discloses_refused (status : ℕ) (detail : String) :
    ¬(Answer.refused status detail).Discloses := by
  rintro ⟨text, hmem⟩
  simp [Answer.cells] at hmem

theorem not_discloses_redirect (status : ℕ) : ¬(Answer.redirect status).Discloses := by
  rintro ⟨text, hmem⟩
  cases hmem

theorem validatedReason_length {raw valid : String} (h : validatedReason raw = some valid) :
    reasonMin ≤ valid.length ∧ valid.length ≤ reasonMax := by
  unfold validatedReason at h
  split_ifs at h with hlength
  cases h
  exact hlength

/-! ### The handlers -/

/-- The read of a report behind the first check. -/
theorem vault_withAuthorizedReport {α : Type} {user : AdminUser} {report : ι}
    {refuse : Answer → Handler ι α} {route : Loaded → Handler ι α} {post : α → Vault ι → Prop}
    {kept : Vault ι → Prop} (hkept : ∀ t, Fresh w t → kept t) (h : Fresh w s)
    (hrefuse : ∀ t, Fresh w t →
      Safe (vault ι exclusive) w (Settles post kept) (refuse (.refused 404 "Not Found")) t)
    (hroute : ∀ read t, Fresh w t → t.read w = some (report, read.report) →
      canAccessReport multiTenancyEnabled user read.report.toPlacement = true →
      (exclusive → read.report.assignedToId ≠ none → Assigned report t) →
      Safe (vault ι exclusive) w (Settles post kept) (route read) t) :
    Safe (vault ι exclusive) w (Settles post kept)
      (withAuthorizedReport multiTenancyEnabled user report refuse route) s := by
  refine Safe.thenSettles (vault_getReport report hkept h) fun found t ht ↦ ?_
  obtain ⟨hfresh, hread⟩ := ht
  split
  · exact hrefuse t hfresh
  · rename_i read hfound
    obtain ⟨hsome, haccess⟩ := Option.filter_eq_some_iff.mp hfound
    obtain ⟨hstored, hassigned⟩ := hread read hsome
    exact hroute read t hfresh hstored haccess hassigned

theorem not_mem_reassigned_kept (h : ∀ other, (w, other) ∉ s.reassigned) (hkept : VaultKept w s t) :
    ∀ other, (w, other) ∉ t.reassigned :=
  fun other hmem ↦ h other ((hkept.reassigned other).mp hmem)

/-- A page that is given no identity. -/
theorem vault_renderReport {user : AdminUser} {read : Loaded} {fieldErrors : List (String × String)}
    {statusCode : ℕ} {reasonDraft : String} {kept : Vault ι → Prop}
    (hkept : ∀ t, (∀ other, (w, other) ∉ t.reassigned) → kept t)
    (h : ∀ other, (w, other) ∉ s.reassigned) :
    Safe (vault ι exclusive) w
      (Settles (fun answer t ↦ ¬answer.Discloses ∧ ∀ other, (w, other) ∉ t.reassigned) kept)
      (renderReport multiTenancyEnabled user read none fieldErrors statusCode reasonDraft) s := by
  refine Safe.thenSettles (vault_pageData (fun t ht ↦ not_mem_reassigned_kept h ht)
    fun t ht ↦ hkept t (not_mem_reassigned_kept h ht)) fun _ t ht ↦ ?_
  exact Safe.ret ⟨not_discloses_page rfl, ht⟩

/-- What the gate answers: a refusal that shows and changes nothing, or a reveal on its way. -/
def Gated (exclusive : Prop) (multiTenancyEnabled : Bool) (w : ℕ) (user : AdminUser) (report : ι)
    (result : Except Answer (Loaded × String)) (s : Vault ι) : Prop :=
  match result with
  | .error answer => ¬answer.Discloses ∧ ∀ other, (w, other) ∉ s.reassigned
  | .ok (_, valid) => Revealing exclusive multiTenancyEnabled w user report s ∧
      reasonMin ≤ valid.length ∧ valid.length ≤ reasonMax

theorem vault_revealGate {user : AdminUser} {report : ι} (reason : String) (h : Fresh w s) :
    Safe (vault ι exclusive) w
      (Settles (Gated exclusive multiTenancyEnabled w user report)
        (Accounted multiTenancyEnabled fernet w user report))
      (revealGate multiTenancyEnabled user report reason) s := by
  refine vault_withAuthorizedReport (fun t ht ↦ .inl ht.untouched.reassigned) h (fun t ht ↦ ?_)
    fun read t ht hstored haccess hassigned ↦ ?_
  · exact Safe.ret ⟨not_discloses_refused _ _, ht.untouched.reassigned⟩
  by_cases hreveal : canRevealIdentity multiTenancyEnabled user read.report.toPlacement = false
  · rw [if_pos hreveal]
    exact Safe.ret ⟨not_discloses_refused _ _, ht.untouched.reassigned⟩
  rw [if_neg hreveal]
  have hentitled : Entitled multiTenancyEnabled w user report t :=
    ⟨read.report, hstored, haccess, (Bool.not_eq_false _).mp hreveal⟩
  rcases hvalid : validatedReason reason with _ | valid
  · refine Safe.thenSettles (vault_logView id (fun _ hu ↦ .inl hu.reassigned) ht) fun _ u hu ↦ ?_
    refine Safe.thenSettles (vault_commitView (fun _ hv ↦ .inl hv) hu) fun _ v hv ↦ ?_
    exact Safe.thenSettles (vault_renderReport (fun _ hx ↦ .inl hx) hv) fun _ _ hx ↦ Safe.ret hx
  · obtain ⟨hmin, hmax⟩ := validatedReason_length hvalid
    by_cases hfree : read.report.assignedToId = none
    · show Safe _ w _ (if read.report.assignedToId = none then _ else _) t
      rw [if_pos hfree, hfree]
      refine Safe.thenSettles (vault_assign hentitled ht) fun refreshed u hu ↦ ?_
      refine Safe.thenSettles (vault_logReveal hu) fun _ v hv ↦ ?_
      exact Safe.ret ⟨hv.1, hmin, hmax⟩
    · show Safe _ w _ (if read.report.assignedToId = none then _ else _) t
      rw [if_neg hfree]
      refine Safe.ret ⟨⟨ht.untouched, hentitled, fun entry hmem ↦ ?_, .inr ⟨fun other _ ↦ ht.free other,
        .inl ⟨ht.free report, fun hexclusive ↦ hassigned hexclusive hfree⟩⟩⟩, hmin, hmax⟩
      rw [ht.pending] at hmem
      cases hmem

/-- What a request promises, however it ends. -/
def Promised (multiTenancyEnabled : Bool) (fernet : Fernet) (w : ℕ) (request : Request ι)
    (result : Except Fault Answer) (s : Vault ι) : Prop :=
  (∀ answer, result = .ok answer → answer.Discloses → ∃ user report,
    request.reveals = some (user, report) ∧ Recorded multiTenancyEnabled fernet w user report s) ∧
  ∀ user report, request.reveals = some (user, report) →
    Accounted multiTenancyEnabled fernet w user report s

theorem Promised.kept {request : Request ι} {result : Except Fault Answer}
    (h : Promised multiTenancyEnabled fernet w request result s) (hkept : VaultKept w s t) :
    Promised multiTenancyEnabled fernet w request result t := by
  refine ⟨fun answer hanswer hdiscloses ↦ ?_, fun user report hreveals ↦
    (h.2 user report hreveals).kept hkept⟩
  obtain ⟨user, report, hreveals, hrecorded⟩ := h.1 answer hanswer hdiscloses
  exact ⟨user, report, hreveals, hrecorded.kept hkept⟩

/-- A reason is stored as a token that can be opened again. -/
theorem vault_encrypt {user : AdminUser} {report : ι} (plaintext : String)
    (h : Revealing exclusive multiTenancyEnabled w user report s) :
    Safe (vault ι exclusive) w
      (Settles (fun token t ↦ Revealing exclusive multiTenancyEnabled w user report t ∧
          fernet.decrypt token = some plaintext)
        (Accounted multiTenancyEnabled fernet w user report)) (encrypt fernet plaintext) s := by
  refine Safe.thenSettles (vault_randomBytes h) fun iv t ht ↦ ?_
  exact Safe.ret ⟨ht, fernet.decrypt_encryptAtTime plaintext 0 iv⟩

/-- The end of both reveals: the entry, the commit, and a response. -/
theorem vault_reveal {user : AdminUser} {report : ι} {valid : String} {via : Option String}
    {respond : Handler ι Answer} (hlength : reasonMin ≤ valid.length ∧ valid.length ≤ reasonMax)
    (hrespond : ∀ t, Recorded multiTenancyEnabled fernet w user report t →
      Safe (vault ι exclusive) w
        (Settles (fun _ u ↦ Recorded multiTenancyEnabled fernet w user report u)
          (Accounted multiTenancyEnabled fernet w user report)) respond t)
    (h : Revealing exclusive multiTenancyEnabled w user report s) :
    Safe (vault ι exclusive) w
      (Settles (fun _ u ↦ Recorded multiTenancyEnabled fernet w user report u)
        (Accounted multiTenancyEnabled fernet w user report))
      (do
        let token ← encrypt fernet valid
        call (.log ⟨user.id, .identityRevealed token via, report⟩)
        call .commit
        respond) s := by
  refine Safe.thenSettles (vault_encrypt valid h) fun token t ht ↦ ?_
  refine Safe.thenSettles (vault_logReveal ht.1) fun _ u hu ↦ ?_
  refine Safe.thenSettles (vault_commitReveal ⟨token, via, valid, rfl, ht.2, hlength⟩ hu.1 hu.2)
    fun _ v hv ↦ ?_
  exact hrespond v hv

/-- A gate and what follows it, as one reveal. -/
theorem vault_gated {user : AdminUser} {report : ι} {reason : String} {via : Option String}
    {respond : Loaded → Handler ι Answer}
    (hrespond : ∀ read t, Recorded multiTenancyEnabled fernet w user report t →
      Safe (vault ι exclusive) w
        (Settles (fun _ u ↦ Recorded multiTenancyEnabled fernet w user report u)
          (Accounted multiTenancyEnabled fernet w user report)) (respond read) t)
    (h : Fresh w s) :
    Safe (vault ι exclusive) w
      (Settles (fun answer u ↦ (answer.Discloses → Recorded multiTenancyEnabled fernet w user report u) ∧
          Accounted multiTenancyEnabled fernet w user report u)
        (Accounted multiTenancyEnabled fernet w user report))
      (do
        match ← revealGate multiTenancyEnabled user report reason with
        | .error answer => return answer
        | .ok (read, valid) =>
          let token ← encrypt fernet valid
          call (.log ⟨user.id, .identityRevealed token via, report⟩)
          call .commit
          respond read) s := by
  refine Safe.thenSettles (vault_revealGate reason h) fun result t ht ↦ ?_
  rcases result with answer | ⟨read, valid⟩
  · exact Safe.ret ⟨fun hdiscloses ↦ absurd hdiscloses ht.1, .inl ht.2⟩
  · refine Safe.imp (fun result u hu ↦ ?_) (vault_reveal ht.2 (hrespond read) ht.1)
    cases result with
    | ok answer => exact ⟨fun _ ↦ hu, .inr hu⟩
    | error exception => exact hu

/-- With assignments by hand nothing is promised of the assignees. -/
theorem vault_any (hshared : ¬exclusive) (operation : Op ι) :
    Safe (vault ι exclusive) w (Settles (fun _ _ ↦ True) fun _ ↦ True) (call operation) s :=
  vault_call (fun _ _ ↦ trivial) fun _ _ _ _ _ _ _ _ _ _ ↦
    ⟨fun hexclusive ↦ absurd hexclusive hshared, trivial, fun _ _ ↦ trivial⟩

theorem vault_getAssignee (hshared : ¬exclusive) (read : Loaded) (choice : Choice) :
    Safe (vault ι exclusive) w
      (Settles (fun result _ ↦ ∀ answer, result = .error answer → ¬answer.Discloses) fun _ ↦ True)
      (getAssignee multiTenancyEnabled read choice) s := by
  have hrefused : ∀ status detail (t : Vault ι), Safe (vault ι exclusive) w
      (Settles (fun (result : Except Answer (Option AdminUser)) _ ↦
        ∀ answer, result = .error answer → ¬answer.Discloses) fun _ ↦ True)
      (return .error (.refused status detail)) t := by
    intro status detail t
    refine Safe.ret fun answer hanswer ↦ ?_
    cases hanswer
    exact not_discloses_refused status detail
  have haccepted : ∀ assignee (t : Vault ι), Safe (vault ι exclusive) w
      (Settles (fun (result : Except Answer (Option AdminUser)) _ ↦
        ∀ answer, result = .error answer → ¬answer.Discloses) fun _ ↦ True)
      (return .ok assignee) t := by
    intro assignee t
    refine Safe.ret fun answer hanswer ↦ ?_
    cases hanswer
  cases choice with
  | nobody => exact haccepted none s
  | malformed => exact hrefused 400 _ s
  | account id =>
    refine Safe.thenSettles (vault_any hshared _) fun found t _ ↦ ?_
    cases found with
    | none => exact hrefused 404 _ t
    | some assignee =>
      show Safe _ w _ (if assignee.isActive = false then _ else if _ then _ else _) t
      split_ifs
      · exact hrefused 400 _ t
      · exact hrefused 400 _ t
      · exact haccepted (some assignee) t

theorem vault_assignReport (hshared : ¬exclusive) (user : AdminUser) (report : ι) (choice : Choice)
    (h : Fresh w s) :
    Safe (vault ι exclusive) w (Settles (fun answer _ ↦ ¬answer.Discloses) fun _ ↦ True)
      (assignReport multiTenancyEnabled user report choice) s := by
  unfold assignReport
  split_ifs
  · exact Safe.ret (not_discloses_refused _ _)
  · refine vault_withAuthorizedReport (fun _ _ ↦ trivial) h
      (fun _ _ ↦ Safe.ret (not_discloses_refused _ _)) fun read t _ _ _ _ ↦ ?_
    refine Safe.thenSettles (vault_getAssignee hshared read choice) fun result u hu ↦ ?_
    cases result with
    | error answer => exact Safe.ret (hu answer rfl)
    | ok assignee =>
      refine Safe.thenSettles (vault_any hshared _) fun _ _ _ ↦ ?_
      refine Safe.thenSettles (vault_any hshared _) fun _ _ _ ↦ ?_
      exact Safe.thenSettles (vault_any hshared _) fun _ _ _ ↦ Safe.ret (not_discloses_redirect 302)

/-- The two routes that show a case without its identity. -/
theorem vault_view {user : AdminUser} {report : ι} {action : AuditAction}
    {respond : Loaded → Handler ι Answer} (hquiet : ¬(⟨user.id, action, report⟩ : AuditEntry ι).Reveals)
    (hrespond : ∀ read t, (∀ other, (w, other) ∉ t.reassigned) → Safe (vault ι exclusive) w
      (Settles (fun answer _ ↦ ¬answer.Discloses) fun _ ↦ True) (respond read) t)
    (h : Fresh w s) :
    Safe (vault ι exclusive) w (Settles (fun answer _ ↦ ¬answer.Discloses) fun _ ↦ True)
      (withAuthorizedReport multiTenancyEnabled user report pure fun read ↦ do
        call (.log ⟨user.id, action, report⟩)
        call .commit
        respond read) s := by
  refine vault_withAuthorizedReport (fun _ _ ↦ trivial) h
    (fun _ _ ↦ Safe.ret (not_discloses_refused _ _)) fun read t ht _ _ _ ↦ ?_
  refine Safe.thenSettles (vault_logView hquiet (fun _ _ ↦ trivial) ht) fun _ u hu ↦ ?_
  exact Safe.thenSettles (vault_commitView (fun _ _ ↦ trivial) hu) fun _ v hv ↦ hrespond read v hv

/-- Every request keeps its promise. -/
theorem vault_promised {request : Request ι} (hadmits : exclusive → ¬request.Assigns)
    (h : Fresh w s) :
    Safe (vault ι exclusive) w (Promised multiTenancyEnabled fernet w request)
      (handler multiTenancyEnabled fernet request) s := by
  have hplain : ∀ result t, request.reveals = none →
      Settles (fun answer _ ↦ ¬answer.Discloses) (fun _ ↦ True) result t →
        Promised multiTenancyEnabled fernet w request result t := by
    intro result t hnone hresult
    refine ⟨fun answer hanswer hdiscloses ↦ ?_, fun user report hreveals ↦ ?_⟩
    · subst hanswer
      exact absurd hdiscloses hresult
    · rw [hnone] at hreveals
      cases hreveals
  have hreveal : ∀ user report result t, request.reveals = some (user, report) →
      Settles (fun answer u ↦
          (answer.Discloses → Recorded multiTenancyEnabled fernet w user report u) ∧
            Accounted multiTenancyEnabled fernet w user report u)
        (Accounted multiTenancyEnabled fernet w user report) result t →
        Promised multiTenancyEnabled fernet w request result t := by
    intro user report result t hsome hresult
    refine ⟨fun answer hanswer hdiscloses ↦ ?_, fun other place hreveals ↦ ?_⟩
    · subst hanswer
      exact ⟨user, report, hsome, hresult.1 hdiscloses⟩
    · rw [hsome] at hreveals
      cases hreveals
      cases result with
      | ok answer => exact hresult.2
      | error exception => exact hresult
  cases request with
  | reportDetail user report =>
    refine Safe.imp (fun result t ↦ hplain result t rfl) ?_
    refine vault_view id (fun read t ht ↦ ?_) h
    refine Safe.imp (fun result u hu ↦ ?_) (vault_renderReport (fun _ _ ↦ trivial) ht)
    cases result with
    | ok answer => exact hu.1
    | error exception => trivial
  | exportPdf user report =>
    refine Safe.imp (fun result t ↦ hplain result t rfl) ?_
    refine vault_view id (fun read t _ ↦ ?_) h
    refine Safe.thenSettles (vault_pageData (fun _ _ ↦ trivial) fun _ _ ↦ trivial) fun _ u _ ↦ ?_
    exact Safe.ret (not_discloses_pdf _ read)
  | revealIdentity user report reason =>
    refine Safe.imp (fun result t ↦ hreveal user report result t rfl) ?_
    refine vault_gated (fun read t ht ↦ ?_) h
    refine Safe.thenSettles (vault_pageData (fun _ hu ↦ ht.kept hu) fun _ hu ↦ .inr (ht.kept hu))
      fun _ u hu ↦ ?_
    exact Safe.ret hu
  | exportPdfWithIdentity user report reason =>
    refine Safe.imp (fun result t ↦ hreveal user report result t rfl) ?_
    refine vault_gated (fun read t ht ↦ ?_) h
    refine Safe.thenSettles (vault_pageData (fun _ hu ↦ ht.kept hu) fun _ hu ↦ .inr (ht.kept hu))
      fun _ u hu ↦ ?_
    exact Safe.ret hu
  | assignReport user report choice =>
    refine Safe.imp (fun result t ↦ hplain result t rfl) ?_
    exact vault_assignReport (fun hexclusive ↦ hadmits hexclusive trivial) user report choice h

theorem vault_handles :
    (vault ι exclusive).Handles (handler multiTenancyEnabled fernet) :=
  fun _ _ _ hadmits _ hfresh ↦
    Safe.imp (fun _ _ _ ↦ trivial) (vault_promised hadmits hfresh)

theorem vault_start : (vault ι exclusive).Holds (start : Work ι) := by
  refine Contract.holds_of_idle ⟨⟨fun _ _ ↦ ⟨rfl, rfl⟩, fun _ _ ↦ ⟨?_, ?_⟩⟩, fun _ ↦ ⟨?_, ?_, ?_, ?_⟩⟩
    (fun _ ↦ ⟨⟨?_, ?_⟩, rfl, fun _ ↦ rfl⟩) fun _ ↦ rfl
  all_goals nofun

/-! ### Every run -/

/-- In a run that the contract permits, a request that has started keeps its promise to the end. -/
theorem promised_of_run {events : List (Step ι)} {last : Work ι}
    (hpermits : Meets semantics (handler multiTenancyEnabled fernet) (vault ι exclusive).Permits start
      events)
    (hrun : run semantics (handler multiTenancyEnabled fernet) start events = some last)
    {request : Request ι} (hadmits : exclusive → ¬request.Assigns)
    (hstart : Event.start w request ∈ events) :
    ∃ program, last.worker w = some program ∧
      Safe (vault ι exclusive) w (Promised multiTenancyEnabled fernet w request) program
        last.shared :=
  Contract.run_promise vault_handles (fun _ _ _ h hkept _ ↦ h.kept hkept.1)
    (fun _ _ hfresh ↦ vault_promised hadmits hfresh) vault_start hpermits hrun (.inl hstart)

end OpenWhistle.Identity
