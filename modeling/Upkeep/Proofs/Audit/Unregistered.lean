import Upkeep.Proofs.Cycle.Failing
import Upkeep.Proofs.Cycle.Naming
import Upkeep.Proofs.Cycle.Parts

/-!
# A database whose local copy has no status

`Unregistered.terms` say what an open directory answers in which the local copy of a hosted database
has no status.  All that a cycle asks about that database is judged by them: every check asks for the
status of the local copy, and only the audit makes something of the answer.

* `Unregistered.repair_meets`, `Unregistered.audit_meets`, `Unregistered.stall_meets` : the three
  checks.
* `Unregistered.rest_meets` : **a cycle reports the database once and asks nothing else about it.**
-/

namespace Upkeep

variable {α : Type}

/-- The status of the local copy of a database is missing, and the database is hosted: what a
directory may say of that, if it is open. -/
structure Told.Unregistered (home : Node) (database : Database) (x : Told) : Prop where
  /-- No call fails. -/
  answered : x.request.isDirectoryCall = true → x.abort? = none
  /-- The database is one of those that are hosted. -/
  hosted : ∀ hosted, x = ⟨.databases, .ok hosted⟩ → hosted.count database = 1
  /-- The local copy has no status. -/
  missing : ∀ status, x = ⟨.status ⟨home, database⟩, .ok status⟩ → status = none

namespace Unregistered

/-- The request for the status of the local copy. -/
abbrev look (home : Node) (database : Database) : Request := .status ⟨home, database⟩

/-- The line that says that the local copy has no status. -/
abbrev missed (home : Node) (database : Database) : Request :=
  .note (.report (.statusMissing home database))

/-- One of the two. -/
def Expected (home : Node) (database : Database) (r : Request) : Prop :=
  r = look home database ∨ r = missed home database

/-- What is asked about a database is written down, and it is of a kind. -/
def terms (home : Node) (database : Database) (P : Request → Prop) : Terms (List Request) where
  answers own r x own' :=
    Told.Unregistered home database ⟨r, x⟩ ∧ own' = own ++ [r].filter (Request.names database)
  allows _ r _ := r.names database = true → P r

/-- In all, the database was reported once, and otherwise only the status of its local copy was
asked for. -/
structure Reported (home : Node) (database : Database) (own : List Request) : Prop where
  /-- Nothing else was asked. -/
  only : ∀ r ∈ own, Expected home database r
  /-- It was reported once. -/
  once : own.count (missed home database) = 1

theorem Reported.look {home : Node} {database : Database} {own : List Request}
    (h : Reported home database own) : Reported home database (own ++ [look home database]) where
  only := List.forall_mem_append.2 ⟨h.only, List.forall_mem_singleton.2 (.inl rfl)⟩
  once := by simp [List.count_append, h.once]

variable {home : Node} {database other : Database} {P : Request → Prop} {own : List Request}
  {I : List Request → Prop}

/-- What is not about the database is not written down. -/
theorem quiet {r : Request} (hr : r.names database = false) :
    own ++ [r].filter (Request.names database) = own := by
  simp [hr]

/-- A check that asks nothing about the database keeps what was written down. -/
theorem meets_quiet {c : Check α} (hc : c.Asks fun r => r.names database = false) (hI : I own) :
    Check.Meets (terms home database P) (fun _ => I) c own := by
  refine hc.meets (fun own r x own' hown hr hx => ?_) hI
  obtain ⟨-, rfl⟩ := hx
  exact ⟨fun hnames => absurd hnames (by simp [hr]), by rwa [quiet hr]⟩

theorem meets_other {c : Check α} (hc : c.Asks (Request.OnlyNames other)) (hne : other ≠ database)
    (hI : I own) : Check.Meets (terms home database P) (fun _ => I) c own :=
  meets_quiet (hc.weaken fun _ hr => hr.not_names hne) hI

/-- If only the status of the local copy is asked for, what that keeps is kept. -/
theorem stable_look (home : Node) (database : Database)
    (hI : ∀ own, I own → I (own ++ [look home database])) :
    (terms home database (· = look home database)).Stable I := by
  rintro own r x _ hown ⟨-, rfl⟩ hallowed
  cases hnames : r.names database with
  | false => rwa [quiet hnames]
  | true =>
    obtain rfl := hallowed hnames
    simpa [hnames] using hI own hown

section Checks

/-! ### The three checks -/

/-- The turn of a database begins with the status of its local copy, and ends there if there is
none. -/
theorem meets_turn {f : Option CopyStatus → Check α} {a : α} (hnone : f none = pure a)
    (hsome : ∀ s, (f (some s)).Asks (Request.OnlyNames other)) :
    Check.Meets (terms home database (· = look home database)) (fun _ _ => True)
      (Check.status ⟨home, other⟩ >>= f) own := by
  refine Check.meets_bind.2 (Check.meets_status.2 ?_)
  rintro reply _ ⟨hreply, rfl⟩
  refine ⟨fun hnames => ?_, fun status hstatus => ?_⟩
  · obtain rfl : other = database := of_decide_eq_true hnames
    rfl
  · subst hstatus
    by_cases hother : other = database
    · subst hother
      obtain rfl := hreply.missing status rfl
      rw [hnone]
      exact Check.meets_pure.2 trivial
    · cases status with
      | none =>
        rw [hnone]
        exact Check.meets_pure.2 trivial
      | some s => exact meets_other (hsome s) hother trivial

/-- The repair check asks for the status of the local copy only. -/
theorem repair_meets : Check.Meets (terms home database (· = look home database))
    (fun _ _ => True) (Repair.check home) own := by
  refine Check.meets_bind.2 ((meets_quiet (I := fun _ => True) (by simp [Request.names])
    trivial).mono fun standing own _ => ?_)
  split
  · refine Check.meets_bind.2 ((meets_quiet (I := fun _ => True) (by simp [Request.names])
      trivial).mono fun hosted own _ => ?_)
    refine Check.Meets.gather (I := fun _ => True) (fun other _ own _ => ?_) trivial
    refine meets_turn (a := []) rfl fun s => ?_
    split
    · exact .bind Repair.recover_names fun _ => .pure _
    · exact .pure _
  · exact meets_quiet (.bind (by simp [Request.names, Report.line]) fun _ => .pure _) trivial

/-- So does the stall check. -/
theorem stall_meets (policy : DemotionPolicy) :
    Check.Meets (terms home database (· = look home database))
      (fun _ _ => True) (Stall.check home policy) own := by
  refine Check.meets_bind.2 ((meets_quiet (I := fun _ => True) (by simp [Request.names])
    trivial).mono fun standing own _ => ?_)
  split
  · refine Check.meets_bind.2 ((meets_quiet (I := fun _ => True) (by simp [Request.names])
      trivial).mono fun hosted own _ => ?_)
    refine Check.Meets.gather (I := fun _ => True) (fun other _ own _ => ?_) trivial
    refine meets_turn (a := []) rfl fun s => ?_
    split
    · refine .bind (.bind (by simp [Request.OnlyNames, Request.names]) fun _ => .pure _)
        fun peers => ?_
      split
      · exact .pure _
      · exact Stall.round_names
    · exact .pure _
  · exact meets_quiet (.bind (by simp [Request.names, Report.line]) fun _ => .pure _) trivial

/-- In the audit a database is reported at its turn. -/
theorem audit_turn :
    Check.Meets (terms home database (Expected home database)) (fun _ own' => own' = own ++
      if other = database then [look home database, missed home database] else [])
      (Audit.auditDatabase home other) own := by
  refine Check.meets_bind.2 (Check.meets_status.2 ?_)
  rintro reply _ ⟨hreply, rfl⟩
  refine ⟨fun hnames => ?_, fun status hstatus => ?_⟩
  · obtain rfl : other = database := of_decide_eq_true hnames
    exact .inl rfl
  · subst hstatus
    by_cases hother : other = database
    · subst hother
      obtain rfl := hreply.missing status rfl
      refine Check.meets_bind.2 (Check.meets_report.2 ?_)
      rintro _ ⟨-, rfl⟩
      refine ⟨fun _ => .inr rfl, Check.meets_bind.2 (Check.meets_count.2 ?_)⟩
      rintro _ ⟨-, rfl⟩
      exact ⟨nofun, Check.meets_pure.2 (by simp [Request.names, Report.line])⟩
    · have hquiet : (Request.status ⟨home, other⟩).names database = false := by
        simpa [Request.names] using hother
      rw [quiet hquiet, if_neg hother, List.append_nil]
      refine meets_other ?_ hother rfl
      split
      · simp [Request.OnlyNames, Request.names, Report.line]
      · exact .pure _

/-- Going through databases the audit reports the database as often as it comes to it. -/
theorem audit_gather (hosted : List Database) :
    Check.Meets (terms home database (Expected home database))
      (fun _ own' => own' = own ++ (List.replicate (hosted.count database)
        [look home database, missed home database]).flatten)
      (Check.gather (Audit.auditDatabase home) hosted) own := by
  induction hosted generalizing own with
  | nil => exact Check.meets_pure.2 (List.append_nil own).symm
  | cons other rest ih =>
    refine Check.meets_bind.2 ((audit_turn).mono fun found own' hown' => ?_)
    subst hown'
    refine Check.meets_bind.2 (ih.mono fun later own'' hown'' => Check.meets_pure.2 ?_)
    rw [hown'', List.append_assoc, List.count_cons]
    by_cases hother : other = database
    · simp [hother, List.replicate_succ]
    · simp [hother]

/-- The audit asks for the status of the local copy, and reports the database. -/
theorem audit_meets :
    Check.Meets (terms home database (Expected home database))
      (fun _ own' => own' = own ++ [look home database, missed home database])
      (Audit.check home) own := by
  refine Check.meets_bind.2 (Check.meets_databases.2 ?_)
  rintro reply _ ⟨hreply, rfl⟩
  refine ⟨nofun, fun hosted hhosted => ?_⟩
  subst hhosted
  refine (audit_gather hosted).mono fun found own' hown' => ?_
  rw [hown', quiet rfl, hreply.hosted hosted rfl]
  rfl

end Checks

section Cycle

/-! ### The cycle -/

/-- What a program asks of one kind it asks of any wider kind. -/
theorem meets_allows {Q : α → List Request → Prop} {P' : Request → Prop} (hP : ∀ r, P r → P' r)
    {p : Program α} (h : p.Meets (terms home database P) Q own) :
    p.Meets (terms home database P') Q own := by
  induction p generalizing own with
  | done a => exact h
  | ask r next ih =>
    intro x own' hx
    obtain ⟨hallowed, hnext⟩ := h x own' hx
    exact ⟨fun hnames => hP r (hallowed hnames), ih x hnext⟩

/-- A check that sends no heartbeats and ends at the first failure ends well, as nothing fails. -/
theorem meets_ok {c : Check α} (hprompt : c.Prompt) {name : CheckName}
    (hasks : c.Asks (Request.OfCheck name)) (hname : name ≠ .stall)
    {Q : α → List Request → Prop} (h : Check.Meets (terms home database P) Q c own) :
    c.run.Meets (terms home database P) (fun reply own' => ∃ a, reply = .ok a ∧ Q a own') own := by
  have hprogram : ∀ {p : Program (Reply α)} {told : List Told} {own : List Request},
      (∀ x ∈ told, x.abort? = none) → p.Meets Check.anything Reply.Ends told →
      p.Meets (.only (Request.OfCheck name)) (fun reply _ => ∀ a, reply = .ok a → True) () →
      p.Meets (terms home database P) (fun reply own' => ∀ a, reply = .ok a → Q a own') own →
      p.Meets (terms home database P) (fun reply own' => ∃ a, reply = .ok a ∧ Q a own') own := by
    intro p
    induction p with
    | done reply =>
      intro told own htold hends _ h
      cases reply with
      | ok a => exact ⟨a, rfl, h a rfl⟩
      | error a =>
        -- the failure would be the last answer
        obtain ⟨before, x, rfl, hx, -⟩ := hends
        have hnone : x.abort? = none := htold x (by simp)
        exact nomatch hnone.symm.trans hx
    | ask r next ih =>
      intro told own htold hends hasks h x own' hx
      obtain ⟨hallowed, hnext⟩ := h x own' hx
      obtain ⟨hr, hasks'⟩ := hasks x () trivial
      refine ⟨hallowed, ih x (List.forall_mem_append.2 ⟨htold, List.forall_mem_singleton.2 ?_⟩)
        (hends x _ rfl).2 hasks' hnext⟩
      cases r with
      | homeStatus | databases | status | setStatus | onlineNodes => exact hx.1.answered rfl
      | install | note => rfl
      | heartbeat => exact absurd hr hname
  have hnil : ∀ x ∈ ([] : List Told), x.abort? = none := nofun
  exact hprogram hnil (hprompt [] hnil) hasks h

/-- What is put on record of a failed check is not about a database. -/
theorem absorb_meets (name : CheckName) (reply : Reply α) (hI : I own) :
    (Cycle.absorb home name reply).Meets (terms home database P) (fun _ => I) own := by
  cases reply with
  | ok a => exact hI
  | error a =>
    simp only [Cycle.absorb]
    split
    · exact hI
    · rintro x _ ⟨-, rfl⟩
      have hfirst : (Request.note (.report (.checkFailed home name a.toFailure))).names database =
          false := by simp [Request.names, Report.line]
      refine ⟨fun hnames => Bool.noConfusion (hnames.symm.trans hfirst), ?_⟩
      rw [quiet hfirst]
      rintro y _ ⟨-, rfl⟩
      refine ⟨?_, by rwa [quiet rfl]⟩
      rintro ⟨⟩

/-- Neither is what is put on record of the end of a cycle. -/
theorem ended_meets (outcome : CycleOutcome) (hI : I own) :
    (do Program.report (.cycleEnded home outcome); return outcome : Program CycleOutcome).Meets
      (terms home database P) (fun _ => I) own := by
  rintro x _ ⟨-, rfl⟩
  have hquiet : (Request.note (.report (.cycleEnded home outcome))).names database = false := by
    simp [Request.names, Report.line]
  exact ⟨fun hnames => Bool.noConfusion (hnames.symm.trans hquiet), by rwa [quiet hquiet]⟩

/-- A repair check ends well and asks for the status of the local copy only. -/
theorem repair_ok : (Repair.check home).run.Meets (terms home database (Expected home database))
    (fun reply own => ∃ attempts, reply = .ok attempts ∧ ∀ r ∈ own, r = look home database) [] := by
  have hkept : Check.Meets (terms home database (· = look home database))
      (fun _ own => ∀ r ∈ own, r = look home database) (Repair.check home) [] := by
    have hstable := stable_look home database (I := fun own => ∀ r ∈ own, r = look home database)
    refine (repair_meets.keep (hstable fun own hown => ?_) (List.forall_mem_nil _)).mono
      fun _ _ h => h.2
    exact List.forall_mem_append.2 ⟨hown, List.forall_mem_singleton.2 rfl⟩
  exact meets_allows (fun _ h => .inl h)
    (meets_ok (Repair.check_prompt home) (Repair.check_asks home) nofun hkept)

/-- An audit ends well and reports the database. -/
theorem audit_ok (hown : ∀ r ∈ own, r = look home database) :
    (Audit.check home).run.Meets (terms home database (Expected home database))
      (fun reply own' => ∃ missing, reply = .ok missing ∧ Reported home database own') own := by
  refine (meets_ok (Audit.check_prompt home) (Audit.check_asks home) nofun audit_meets).mono ?_
  rintro _ _ ⟨missing, rfl, rfl⟩
  have hnone : own.count (missed home database) = 0 :=
    List.count_eq_zero.2 fun hmem => nomatch hown _ hmem
  refine ⟨missing, rfl, fun r hr => ?_, ?_⟩
  · obtain hr | hr := List.mem_append.1 hr
    · exact .inl (hown r hr)
    · simpa [Expected] using hr
  · simp [List.count_append, hnone]

/-- However a stall check ends, it asks for the status of the local copy only. -/
theorem stall_kept (policy : DemotionPolicy) (hown : Reported home database own) :
    (Stall.check home policy).run.Meets (terms home database (Expected home database))
      (fun _ => Reported home database) own := by
  have hstable := stable_look home database (I := Reported home database) fun _ h => h.look
  exact meets_allows (fun _ h => .inl h)
    ((Program.Meets.keep (stall_meets policy) hstable hown).mono fun _ _ h => h.2)

/-- **A cycle reports the database once and asks nothing else about it.** -/
theorem rest_meets (home : Node) (policy : DemotionPolicy) (database : Database) :
    (Cycle.rest home policy).Meets (terms home database (Expected home database))
      (fun _ => Reported home database) [] := by
  refine Program.meets_bind.2 (Program.meets_bind.2 (Program.meets_bind.2 (repair_ok.mono ?_)))
  rintro _ own ⟨attempts, rfl, hown⟩
  -- the repair check ended well, so the audit is run
  refine Program.meets_bind.2 (Program.meets_bind.2 ((audit_ok hown).mono ?_))
  rintro _ own ⟨missing, rfl, hreported⟩
  refine Program.meets_bind.2 (Program.meets_bind.2 ((stall_kept policy hreported).mono ?_))
  refine fun reply own hreported => (absorb_meets _ reply hreported).mono fun goesOn own h => ?_
  cases goesOn with
  | true => exact ended_meets .completed h
  | false => exact ended_meets .interrupted h

end Cycle

end Unregistered

end Upkeep
