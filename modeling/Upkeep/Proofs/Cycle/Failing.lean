import Upkeep.Cycle
import Upkeep.Proofs.Program.History
import Upkeep.Proofs.Program.Terms

/-!
# What ends a check

A check ends before its time at the first answer that is a failure, and with that failure.  Not
every failure counts: that of an install never does, and that of a heartbeat only if it says more
than that nobody answered (`Told.abort?`).

* `Check.Prompt` : a check that ends so, whatever it is answered.
* `Repair.check_prompt`, `Audit.check_prompt`, `Stall.check_prompt` : the three checks do.
-/

namespace Upkeep

variable {α β : Type}

/-- The failure of a reply, if it is one. -/
def Reply.abort? : Reply α → Option Abort
  | .ok _ => none
  | .error a => some a

/-- The failure of a heartbeat, if it is one that says more than that nobody answered. -/
def Reply.heartbeatAbort? : Reply α → Option Abort
  | .ok _ => none
  | .error (.failure (.allUnreachable _)) => none
  | .error a => some a

theorem Reply.heartbeatAbort?_eq_some {reply : Reply α} {a : Abort}
    (h : Reply.heartbeatAbort? reply = some a) :
    reply = .error a ∧ ∀ database, a ≠ .failure (.allUnreachable database) := by
  unfold heartbeatAbort? at h
  split at h
  · exact nomatch h
  · exact nomatch h
  · rename_i b hother
    obtain rfl := Option.some.inj h
    exact ⟨rfl, fun database hb => hother database hb⟩

/-- The failure with which an answer ends the check that asked for it, if it does. -/
def Told.abort? : Told → Option Abort
  | ⟨.homeStatus, x⟩ => Reply.abort? x
  | ⟨.databases, x⟩ => Reply.abort? x
  | ⟨.status _, x⟩ => Reply.abort? x
  | ⟨.setStatus _ _, x⟩ => Reply.abort? x
  | ⟨.onlineNodes _, x⟩ => Reply.abort? x
  | ⟨.heartbeat _ _ _, x⟩ => Reply.heartbeatAbort? x
  | ⟨.install _, _⟩ => none
  | ⟨.note _, _⟩ => none

/-- A check that was told `h` ended with this reply: it ended well and nothing in `h` is a failure
that counts, or it ended with the failure that comes last in `h` and is the only one there. -/
def Reply.Ends (reply : Reply α) (h : List Told) : Prop :=
  match reply with
  | .ok _ => ∀ x ∈ h, x.abort? = none
  | .error a => ∃ before x, h = before ++ [x] ∧ x.abort? = some a ∧ ∀ y ∈ before, y.abort? = none

/-- One more answer ends a check as its failure says. -/
theorem Reply.ends_snoc (reply : Reply α) {h : List Told} (hh : ∀ x ∈ h, x.abort? = none) {x : Told}
    (hx : x.abort? = reply.abort?) : reply.Ends (h ++ [x]) := by
  cases reply with
  | ok a => exact List.forall_mem_append.2 ⟨hh, List.forall_mem_singleton.2 hx⟩
  | error a => exact ⟨h, x, rfl, hx, hh⟩

/-- The answer that ends a check is the last one that it was told. -/
theorem Reply.Ends.of_abort {reply : Reply α} {before after : List Told} {x : Told}
    {a : Abort} (hends : reply.Ends (before ++ x :: after)) (hx : x.abort? = some a) :
    reply.abort? = some a ∧ after = [] := by
  cases reply with
  | ok value =>
    have hnone : x.abort? = none := hends x (by simp)
    exact nomatch hx.symm.trans hnone
  | error b =>
    obtain ⟨earlier, last, heq, hlast, hearlier⟩ := hends
    obtain rfl | ⟨middle, z, rfl⟩ := after.eq_nil_or_concat
    · obtain ⟨rfl, hsame⟩ := List.append_inj' heq rfl
      obtain rfl := List.singleton_inj.1 hsame
      exact ⟨hlast.symm.trans hx, rfl⟩
    · -- otherwise the failure would come before another answer
      have heq' : (before ++ x :: middle) ++ [z] = earlier ++ [last] := by simpa using heq
      obtain ⟨rfl, -⟩ := List.append_inj' heq' rfl
      have hnone : x.abort? = none := hearlier x (by simp)
      exact nomatch hx.symm.trans hnone

namespace Check

/-- Any request may be made, and answered with anything. -/
abbrev anything : Terms (List Told) := .heard fun _ _ => True

/-- Whatever it is answered, a check ends at the first answer that is a failure, and with that. -/
def Prompt (c : Check α) : Prop :=
  ∀ h, (∀ x ∈ h, x.abort? = none) → Program.Meets anything Reply.Ends (ExceptT.run c) h

theorem Prompt.pure (a : α) : (Pure.pure a : Check α).Prompt := fun _ hh => hh

theorem Prompt.bind {c : Check α} {f : α → Check β} (hc : c.Prompt) (hf : ∀ a, (f a).Prompt) :
    (c >>= f).Prompt := by
  refine fun h hh => Program.meets_run_bind.2 ((hc h hh).mono fun reply h' hends => ⟨?_, ?_⟩)
  · rintro a rfl
    exact hf a h' hends
  · rintro a rfl
    exact hends

theorem Prompt.map {c : Check α} (hc : c.Prompt) (f : α → β) : (f <$> c).Prompt := by
  rw [map_eq_pure_bind]
  exact hc.bind fun a => .pure (f a)

theorem Prompt.gather {f : α → Check (List β)} (hf : ∀ a, (f a).Prompt) :
    ∀ l, (Check.gather f l).Prompt
  | [] => .pure []
  | a :: rest => .bind (hf a) fun _ => .bind (.gather hf rest) fun _ => .pure _

section Requests

/-! ### The requests of a check -/

theorem prompt_homeStatus : homeStatus.Prompt := by
  rintro h hh x _ rfl
  exact ⟨trivial, Reply.ends_snoc x hh rfl⟩

theorem prompt_databases : databases.Prompt := by
  rintro h hh x _ rfl
  exact ⟨trivial, Reply.ends_snoc x hh rfl⟩

theorem prompt_status (key : CopyKey) : (status key).Prompt := by
  rintro h hh x _ rfl
  exact ⟨trivial, Reply.ends_snoc x hh rfl⟩

theorem prompt_setStatus (key : CopyKey) (s : CopyStatus) : (setStatus key s).Prompt := by
  rintro h hh x _ rfl
  exact ⟨trivial, Reply.ends_snoc x hh rfl⟩

theorem prompt_onlinePeers (home : Node) (database : Database) :
    (onlinePeers home database).Prompt := by
  refine .bind (c := onlineNodes database) ?_ fun _ => .pure _
  rintro h hh x _ rfl
  exact ⟨trivial, Reply.ends_snoc x hh rfl⟩

/-- Whatever an install is answered, the check goes on. -/
theorem prompt_install (source : InstallSource) : (install source).Prompt := by
  rintro h hh x _ rfl
  exact ⟨trivial, Reply.ends_snoc (.ok x) hh rfl⟩

theorem prompt_report (r : Report) : (report r).Prompt := by
  rintro h hh x _ rfl
  exact ⟨trivial, Reply.ends_snoc (.ok ()) hh rfl⟩

theorem prompt_count (c : Counter) : (count c).Prompt := by
  rintro h hh x _ rfl
  exact ⟨trivial, Reply.ends_snoc (.ok ()) hh rfl⟩

/-- A heartbeat that nobody answered is an answer; any other failure of it ends the check. -/
theorem prompt_heartbeat {database : Database} {peers : List Node} {timeoutMs : Nat}
    {f : Option Responses → Check β} (hf : ∀ responses?, (f responses?).Prompt) :
    (heartbeat database peers timeoutMs >>= fun reply =>
      liftM (Stall.answers? reply) >>= f).Prompt := by
  intro h hh
  refine Program.meets_run_bind.2 ?_
  rintro x _ rfl
  refine ⟨trivial, ?_, nofun⟩
  rintro _ ⟨rfl⟩
  have hends : Reply.Ends (Stall.answers? x) (h ++ [⟨.heartbeat database peers timeoutMs, x⟩]) := by
    refine Reply.ends_snoc _ hh ?_
    cases x with
    | ok responses => rfl
    | error a =>
      cases a with
      | failure e => cases e <;> rfl
      | crash payload => rfl
  cases hreply : Stall.answers? x with
  | ok responses? =>
    rw [hreply] at hends
    exact hf responses? _ hends
  | error a =>
    rw [hreply] at hends
    exact hends

end Requests

end Check

open Check

variable {home : Node} {database : Database}

namespace Repair

theorem promote_prompt : (promote home database).Prompt :=
  .bind (prompt_report _) fun _ => .bind (prompt_setStatus _ _) fun _ =>
    .bind (prompt_count _) fun _ => .pure _

theorem install_prompt {source : InstallSource} : (install home source).Prompt := by
  refine .bind (prompt_report _) fun _ => .bind (prompt_install _) fun reply => ?_
  split
  · exact .bind (prompt_setStatus _ _) fun _ => .bind (prompt_report _) fun _ =>
      .bind (prompt_count _) fun _ => .pure _
  · exact .bind (prompt_report _) fun _ => .bind (prompt_count _) fun _ => .pure _

theorem repairDatabase_prompt : (repairDatabase home database).Prompt := by
  refine .bind (prompt_status _) fun status => ?_
  split
  · refine .bind (.bind (prompt_onlinePeers _ _) fun peers => ?_) fun _ => .pure _
    split
    · exact .bind promote_prompt fun _ => .pure _
    · exact .bind install_prompt fun _ => .pure _
  · exact .pure _

/-- **The repair check ends at the first failing call of the directory**, and not at an install. -/
theorem check_prompt (home : Node) : (check home).Prompt := by
  refine .bind prompt_homeStatus fun standing => ?_
  split
  · exact .bind prompt_databases fun _ => .gather (fun _ => repairDatabase_prompt) _
  · exact .bind (prompt_report _) fun _ => .pure _

end Repair

/-- **The audit ends at the first failing call of the directory.** -/
theorem Audit.check_prompt (home : Node) : (Audit.check home).Prompt := by
  refine .bind prompt_databases fun _ => .gather (fun database => ?_) _
  refine .bind (prompt_status _) fun status => ?_
  split
  · exact .bind (prompt_report _) fun _ => .bind (prompt_count _) fun _ => .pure _
  · exact .pure _

namespace Stall

variable {policy : DemotionPolicy}

theorem apply_prompt {peer : Node} : (policy.apply home database peer).Prompt := by
  refine .bind (prompt_status _) fun status => ?_
  split
  · split
    · exact .bind (prompt_report _) fun _ => .bind (prompt_setStatus _ _) fun _ =>
        .bind (prompt_count _) fun _ => .pure _
    · exact .bind (prompt_report _) fun _ => .bind (prompt_count _) fun _ => .pure _
  · exact .pure _

theorem judgeRound_prompt {peers : List Node} (responses? : Option Responses) :
    (judgeRound home policy database peers responses?).Prompt := by
  cases responses? with
  | none => exact .bind (prompt_report _) fun _ => .bind (prompt_count _) fun _ => .pure _
  | some responses =>
    exact .bind (prompt_count _) fun _ => .gather (fun _ => .bind apply_prompt fun _ => .pure _) _

theorem checkDatabase_prompt : (checkDatabase home policy database).Prompt := by
  refine .bind (prompt_status _) fun status => ?_
  split
  · refine .bind (prompt_onlinePeers _ _) fun peers => ?_
    split
    · exact .pure _
    · exact .bind (prompt_report _) fun _ => prompt_heartbeat judgeRound_prompt
  · exact .pure _

/-- **The stall check ends at the first failing call of the directory**, or with a round that fails
for more than want of answers. -/
theorem check_prompt (home : Node) (policy : DemotionPolicy) : (check home policy).Prompt := by
  refine .bind prompt_homeStatus fun standing => ?_
  split
  · exact .bind prompt_databases fun _ => .gather (fun _ => checkDatabase_prompt) _
  · exact .bind (prompt_report _) fun _ => .pure _

end Stall

/-- A check that runs alone ends as what it was told says. -/
theorem Check.Prompt.ends {σ : Type} {e : Surroundings σ} {c : Check α} (hc : c.Prompt) (s : σ) :
    Reply.Ends (c.run.outcome e s).1 ((c.run.trace e s).map Exchange.told) :=
  (hc [] (fun _ hx => nomatch hx)).outcome_told s

end Upkeep
