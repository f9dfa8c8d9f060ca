import Mathlib.Data.Finset.Card
import Upkeep.Proofs.Cycle.Isolation
import Upkeep.Proofs.Cycle.Writes
import Upkeep.Proofs.Program.Ledger
import Upkeep.Proofs.Stall.Peers

/-!
# Decisions, writes and counters agree

* `Repair.check_books`, `Audit.check_books`, `Stall.check_books` : the ledger of each check is
  balanced however the check ends, and agrees with what the check returns.
-/

namespace Upkeep

open Check

/-- The label under which a recovery is counted. -/
def RecoveryOutcome.label : RecoveryOutcome → String
  | promotedLastCopy => "promoted"
  | recovered _ => "recovered"
  | failed _ _ => "failed"

/-- The label under which a decision is counted, if it is counted. -/
def Demotion.label? : Demotion → Option String
  | demoted => some "demoted"
  | suppressed => some "suppressed"
  | notOnline => none

variable {home : Node} {database : Database}

namespace Repair

/-- The recoveries are counted by their outcomes. -/
def Accounts (attempts : List RecoveryAttempt) (l : Ledger) : Prop :=
  ∀ label, l.counted (.recoveries label) = attempts.countP fun a => a.outcome.label = label

/-- One recovery is counted once. -/
theorem accounts_count (attempt : RecoveryAttempt) :
    Accounts [attempt] (.count (.recoveries attempt.outcome.label)) := by
  intro label
  by_cases h : attempt.outcome.label = label <;>
    simp [Ledger.count, h]

/-- A write does not count by itself. -/
theorem accounts_write {attempts : List RecoveryAttempt} {l : Ledger} (h : Accounts attempts l) :
    Accounts attempts (.write + l) := by
  intro label
  rw [Ledger.counted_add, h label]
  exact Nat.zero_add _

theorem Accounts.append {attempts attempts' : List RecoveryAttempt} {l l' : Ledger}
    (h : Accounts attempts l) (h' : Accounts attempts' l') :
    Accounts (attempts ++ attempts') (l + l') := by
  intro label
  rw [Ledger.counted_add, h label, h' label, List.countP_append]

theorem promote_books :
    (promote home database).Books fun outcome l => Accounts [⟨database, outcome⟩] l := by
  refine .after_report (.settle (yields_counted _ _) ?_ ?_) _
  · exact rfl
  · exact accounts_write (accounts_count ⟨database, .promotedLastCopy⟩)

theorem install_books {source : InstallSource} :
    (install home source).Books fun outcome l => Accounts [⟨source.database, outcome⟩] l := by
  refine .after_report (.after_silent (silent_install source) fun reply => ?_) _
  split
  · refine .settle (.after_report (yields_counted _ _) _) ?_ ?_
    · exact rfl
    · exact accounts_write (accounts_count ⟨source.database, .recovered source.node⟩)
  · rename_i reason _
    refine .after_report (.of_counted (yields_counted _ _) ?_ ?_) _
    · exact rfl
    · exact accounts_count ⟨source.database, .failed source.node reason⟩

theorem repairDatabase_books : (repairDatabase home database).Books Accounts := by
  refine .after_silent (silent_status _) fun status => ?_
  split
  · refine .map (c := recover home database) (S := fun attempt l => Accounts [attempt] l) ?_
      fun _ _ h => h
    refine .after_silent (silent_onlinePeers home database) fun peers => ?_
    split
    · exact .map promote_books fun _ _ h => h
    · exact .map install_books fun _ _ h => h
  · exact .pure fun _ => rfl

/-- **The repair check counts its attempts by their outcomes.** -/
theorem check_books (home : Node) : (check home).Books Accounts := by
  refine .after_silent silent_homeStatus fun standing => ?_
  split
  · refine .after_silent silent_databases fun databases => ?_
    refine .gather (S := fun _ => Accounts) (A := fun _ => Accounts) (fun _ => rfl) ?_
      (fun _ => repairDatabase_books) databases
    exact fun _ _ _ _ _ _ h h' => h.append h'
  · exact .after_report (.pure fun _ => rfl) _

end Repair

/-- **The audit counts what it returns.** -/
theorem Audit.check_books (home : Node) : (check home).Books fun missing l =>
    l.counted .missingStatuses = missing.length := by
  refine .after_silent silent_databases fun databases => ?_
  refine .gather (S := fun _ missing l => l.counted .missingStatuses = missing.length)
    (A := fun _ missing l => l.counted .missingStatuses = missing.length) rfl ?_
    (fun database => ?_) databases
  · intro _ _ missing missing' l l' h h'
    rw [Ledger.counted_add, h, h', List.length_append]
  · refine .after_silent (silent_status _) fun status => ?_
    split
    · refine .after_report (.of_counted (yields_counted _ _) ?_ ?_) _
      · exact rfl
      · exact rfl
    · exact .pure rfl

namespace Stall

variable {policy : DemotionPolicy}

/-- Decisions of a round are counted by their outcomes, and nothing else is. -/
structure Judged (database : Database) (peers : List Node) (decisions : List PeerDemotion)
    (l : Ledger) : Prop where
  /-- Each decision is counted. -/
  demotions : ∀ label, l.counted (.demotions label) =
    decisions.countP fun d => d.outcome.label? = some label
  /-- No round is counted. -/
  counted : ∀ label, l.counted (.rounds label) = 0
  /-- No heartbeat is sent. -/
  sent : l.sent = 0
  /-- So none comes to anything. -/
  rounds : ∀ label, l.rounds label = 0
  /-- The decisions are about the database. -/
  same : ∀ d ∈ decisions, d.database = database
  /-- There is one for each peer. -/
  length : decisions.length = peers.length

theorem Judged.append {peers peers' : List Node} {decisions decisions' : List PeerDemotion}
    {l l' : Ledger} (h : Judged database peers decisions l)
    (h' : Judged database peers' decisions' l') :
    Judged database (peers ++ peers') (decisions ++ decisions') (l + l') where
  demotions label := by
    rw [Ledger.counted_add, h.demotions, h'.demotions, List.countP_append]
  counted label := by rw [Ledger.counted_add, h.counted, h'.counted]
  sent := by rw [Ledger.sent_add, h.sent, h'.sent]
  rounds label := by rw [Ledger.rounds_add, h.rounds, h'.rounds]
  same d hd := (List.mem_append.1 hd).elim (h.same d) (h'.same d)
  length := by rw [List.length_append, List.length_append, h.length, h'.length]

/-- A decision is counted once, if its outcome has a label. -/
theorem judged_count {peer : Node} {outcome : Demotion} {l : Ledger}
    (hl : ∀ label, l.counted (.demotions label) = if outcome.label? = some label then 1 else 0)
    (hcounted : ∀ label, l.counted (.rounds label) = 0) (hsent : l.sent = 0)
    (hrounds : ∀ label, l.rounds label = 0) :
    Judged database [peer] [⟨database, peer, outcome⟩] l where
  demotions label := by
    rw [hl, List.countP_singleton]
    simp
  counted := hcounted
  sent := hsent
  rounds := hrounds
  same d hd := by
    obtain rfl := List.mem_singleton.1 hd
    rfl
  length := rfl

theorem apply_books {peer : Node} : (policy.apply home database peer).Books fun outcome l =>
    Judged database [peer] [⟨database, peer, outcome⟩] l := by
  refine .after_silent (silent_status _) fun status => ?_
  split
  · split
    · refine .after_report (.settle (yields_counted _ _) ?_ ?_) _
      · exact rfl
      · refine judged_count (fun label => ?_) (fun _ => rfl) rfl fun _ => rfl
        simp [Ledger.write, Ledger.count, Demotion.label?]
    · refine .after_report (.of_counted (yields_counted _ _) ?_ ?_) _
      · exact rfl
      · refine judged_count (fun label => ?_) (fun _ => rfl) rfl fun _ => rfl
        simp [Ledger.count, Demotion.label?]
  · exact .pure (judged_count (fun _ => rfl) (fun _ => rfl) rfl fun _ => rfl)

/-- What comes of a round that was answered so. -/
def labelOf (peers : List Node) : Option Responses → String
  | none => "unreachable"
  | some responses => if (silent peers responses).isEmpty then "complete" else "partial"

theorem roundLabel?_of_answers {peers : List Node} {x : Reply Responses}
    {responses? : Option Responses} (h : answers? x = .ok responses?) :
    roundLabel? peers x = some (labelOf peers responses?) := by
  cases x with
  | ok responses =>
    have hsilent : (silent peers responses).isEmpty = true ↔
        ∀ peer ∈ peers, responses.contains peer = true := by
      simp [silent, List.isEmpty_iff]
    obtain rfl := Except.ok.inj h
    by_cases hnone : responses.isEmpty = true
    · simp [roundLabel?, labelOf, hnone]
    · simp only [roundLabel?, labelOf, hnone, if_false, Bool.false_eq_true, hsilent]
      split <;> rfl
  | error a =>
    -- only want of answers lets the round go on
    unfold answers? at h
    split at h
    · rename_i hok
      cases hok
    · rename_i hnone
      obtain rfl := Except.ok.inj h
      rw [hnone]
      rfl
    · cases h

/-- A round that came to `label` is counted under it, and its decisions by their outcomes. -/
structure Tallied (label : String) (database : Database) (decisions : List PeerDemotion)
    (l : Ledger) : Prop where
  /-- Each decision is counted. -/
  demotions : ∀ label, l.counted (.demotions label) =
    decisions.countP fun d => d.outcome.label? = some label
  /-- The round is counted. -/
  counted : ∀ label', l.counted (.rounds label') = if label = label' then 1 else 0
  /-- No other heartbeat is sent. -/
  sent : l.sent = 0
  /-- So none comes to anything. -/
  rounds : ∀ label, l.rounds label = 0
  /-- The decisions are about the database. -/
  same : ∀ d ∈ decisions, d.database = database
  /-- There are some exactly if a peer was silent. -/
  empty : decisions = [] ↔ label ≠ "partial"

theorem judgeRound_books {peers : List Node} (responses? : Option Responses) :
    (judgeRound home policy database peers responses?).Books
      (Tallied (labelOf peers responses?) database) := by
  cases responses? with
  | none =>
    refine .after_report (.of_counted (yields_counted _ _) ?_ ?_) _
    · exact rfl
    · refine ⟨fun _ => rfl, fun label => ?_, rfl, fun _ => rfl, nofun, ?_⟩
      · by_cases hlabel : "unreachable" = label <;> simp [Ledger.count, labelOf, hlabel]
      · simp [labelOf]
  | some responses =>
    have hjudge : ∀ peer, (judge home policy database peer).Books (Judged database [peer]) :=
      fun peer => .map apply_books fun _ _ h => h
    have hnil : Judged database [] [] 0 :=
      ⟨fun _ => rfl, fun _ => rfl, rfl, fun _ => rfl, nofun, rfl⟩
    refine .bind (books_count rfl) (fun _ => .gather hnil (fun _ _ _ _ _ _ h h' => h.append h')
      hjudge _) ?_
    rintro _ decisions _ l rfl h
    have hempty : decisions = [] ↔ (silent peers responses).isEmpty = true := by
      rw [← List.length_eq_zero_iff, h.length, List.length_eq_zero_iff, List.isEmpty_iff]
    refine ⟨fun label => ?_, fun label => ?_, ?_, fun label => ?_, h.same, ?_⟩
    · rw [Ledger.counted_add, h.demotions]
      exact Nat.zero_add _
    · rw [Ledger.counted_add, h.counted]
      by_cases hlabel : labelOf peers (some responses) = label <;>
        simp_all [Ledger.count, labelOf]
    · rw [Ledger.sent_add, h.sent]
      rfl
    · rw [Ledger.rounds_add, h.rounds]
      rfl
    · rw [hempty, labelOf]
      split <;> simp [*]

/-- The rounds and the decisions of a check are counted by what came of them. -/
structure Accounts (decisions : List PeerDemotion) (l : Ledger) : Prop where
  /-- Each decision is counted. -/
  demotions : ∀ label, l.counted (.demotions label) =
    decisions.countP fun d => d.outcome.label? = some label
  /-- Each round is counted. -/
  rounds : ∀ label, l.counted (.rounds label) = l.rounds label
  /-- Every heartbeat came to something. -/
  sent : l.sent = l.rounds "unreachable" + l.rounds "complete" + l.rounds "partial"
  /-- There are decisions on as many databases as there are rounds in which a peer was silent. -/
  silent : l.rounds "partial" = (decisions.map PeerDemotion.database).toFinset.card

theorem accounts_nil : Accounts [] 0 := ⟨fun _ => rfl, fun _ => rfl, rfl, rfl⟩

/-- Accounts of different databases add up. -/
theorem Accounts.append {decisions decisions' : List PeerDemotion} {l l' : Ledger}
    (h : Accounts decisions l) (h' : Accounts decisions' l')
    (hapart : ∀ d ∈ decisions, ∀ d' ∈ decisions', d.database ≠ d'.database) :
    Accounts (decisions ++ decisions') (l + l') where
  demotions label := by
    rw [Ledger.counted_add, h.demotions, h'.demotions, List.countP_append]
  rounds label := by rw [Ledger.counted_add, h.rounds, h'.rounds, Ledger.rounds_add]
  sent := by
    have hsent := h.sent
    have hsent' := h'.sent
    simp only [Ledger.sent_add, Ledger.rounds_add]
    omega
  silent := by
    rw [Ledger.rounds_add, h.silent, h'.silent, List.map_append, List.toFinset_append,
      Finset.card_union_of_disjoint]
    refine Finset.disjoint_left.2 fun database hdatabase hdatabase' => ?_
    obtain ⟨d, hd, rfl⟩ := List.mem_map.1 (List.mem_toFinset.1 hdatabase)
    obtain ⟨d', hd', hsame⟩ := List.mem_map.1 (List.mem_toFinset.1 hdatabase')
    exact hapart d hd d' hd' hsame.symm

/-- A round that was answered, and what came of it. -/
theorem Tallied.accounts {peers : List Node} {x : Reply Responses} {responses? : Option Responses}
    {decisions : List PeerDemotion} {l : Ledger} (hx : answers? x = .ok responses?)
    (h : Tallied (labelOf peers responses?) database decisions l) :
    Accounts decisions (.round (roundLabel? peers x) + l) := by
  rw [roundLabel?_of_answers hx]
  generalize hlabel : labelOf peers responses? = label at h
  have hlabels : label = "unreachable" ∨ label = "complete" ∨ label = "partial" := by
    subst hlabel
    unfold labelOf
    split
    · exact .inl rfl
    · split
      · exact .inr (.inl rfl)
      · exact .inr (.inr rfl)
  have hrounds : ∀ other, (Ledger.round (some label) + l).rounds other =
      if label = other then 1 else 0 := by
    intro other
    rw [Ledger.rounds_add, h.rounds, Nat.add_zero]
    by_cases hother : label = other <;> simp [Ledger.round, hother]
  refine ⟨fun other => ?_, fun other => ?_, ?_, ?_⟩
  · rw [Ledger.counted_add, h.demotions]
    exact Nat.zero_add _
  · rw [hrounds, Ledger.counted_add, h.counted]
    exact Nat.zero_add _
  · rw [hrounds, hrounds, hrounds, Ledger.sent_add, h.sent]
    obtain rfl | rfl | rfl := hlabels <;> rfl
  · rw [hrounds]
    split
    · rename_i hpartial
      have hne : decisions ≠ [] := mt h.empty.1 (not_not.2 hpartial)
      obtain ⟨d, hd⟩ := List.exists_mem_of_ne_nil _ hne
      have hone : (decisions.map PeerDemotion.database).toFinset = {database} := by
        ext other
        simp only [List.mem_toFinset, List.mem_map, Finset.mem_singleton]
        constructor
        · rintro ⟨d', hd', rfl⟩
          exact h.same d' hd'
        · rintro rfl
          exact ⟨d, hd, h.same d hd⟩
      rw [hone, Finset.card_singleton]
    · rename_i hpartial
      rw [h.empty.2 hpartial]
      rfl

theorem round_books {peers : List Node} : (round home policy database peers).Books
    fun decisions l => Accounts decisions l ∧ ∀ d ∈ decisions, d.database = database := by
  refine .after_report (.bind (books_heartbeat database peers policy.timeoutMs) (fun x =>
    .bind (books_reply (answers? x)) (fun responses? => judgeRound_books responses?)
      (U := fun decisions l => ∃ responses?, answers? x = .ok responses? ∧
        Tallied (labelOf peers responses?) database decisions l) ?_) ?_) _
  · rintro responses? decisions _ l ⟨hx, rfl⟩ h
    exact ⟨responses?, hx, by rwa [zero_add]⟩
  · rintro x decisions _ l rfl ⟨responses?, hx, h⟩
    exact ⟨h.accounts hx, h.same⟩

theorem checkDatabase_books : (checkDatabase home policy database).Books
    fun decisions l => Accounts decisions l ∧ ∀ d ∈ decisions, d.database = database := by
  refine .after_silent (silent_status _) fun status => ?_
  split
  · refine .after_silent (silent_onlinePeers home database) fun peers => ?_
    split
    · exact .pure ⟨accounts_nil, nofun⟩
    · exact round_books
  · exact .pure ⟨accounts_nil, nofun⟩

/-- **The stall check counts its rounds and its decisions by what came of them.** -/
theorem check_books (home : Node) (policy : DemotionPolicy) :
    (check home policy).Books Accounts := by
  refine .after_silent silent_homeStatus fun standing => ?_
  split
  · refine .bind books_databases (fun databases => .gather
      (S := fun names decisions l => (∀ d ∈ decisions, d.database ∈ names) ∧
        (names.Nodup → Accounts decisions l))
      ⟨nofun, fun _ => accounts_nil⟩ ?_ (fun _ => checkDatabase_books) databases) ?_
    · rintro database rest found later l l' ⟨h, hsame⟩ ⟨hmem, h'⟩
      refine ⟨fun d hd => ?_, fun hnodup => ?_⟩
      · obtain hd | hd := List.mem_append.1 hd
        · exact hsame d hd ▸ List.mem_cons_self
        · exact List.mem_cons_of_mem _ (hmem d hd)
      · obtain ⟨hnew, hrest⟩ := List.nodup_cons.1 hnodup
        refine h.append (h' hrest) fun d hd d' hd' hdatabase => hnew ?_
        rw [← hsame d hd, hdatabase]
        exact hmem d' hd'
    · rintro names decisions _ l ⟨rfl, hnodup⟩ ⟨-, h⟩
      rw [zero_add]
      exact h hnodup
  · exact .after_report (.pure accounts_nil) _

end Stall

end Upkeep
