import Upkeep.Proofs.Cycle.Faults
import Upkeep.Proofs.Repair.Attempts

/-!
# A call of the directory that fails cuts a check short

If one call of the directory fails, without effect, the check ends with that failure, and what it has
done by then is what it does without the fault before that call.  Nothing is taken back and nothing
is done afterwards.  It does not matter what the failure says: a heartbeat that nobody answered is an
answer, but a directory that says so of a database has failed.

* `Check.Cut` : how a check ends that is cut short, and what it leaves.
* `Check.Prompt.cutsCleanly` : a check that ends at the first failure is cut so at any call.
* `Repair.check_backed` : a repair check writes and counts only what is backed by what it was just
  told.
* `Check.clean_cut` : **the three checks are cut cleanly**, and a copy that was installed but could
  not be set online counts for nothing.
-/

namespace Upkeep

variable {σ α : Type}

/-- Whether something was done: a status was set with success, or an install or a heartbeat was
asked for. -/
def Told.isDone : Told → Bool
  | ⟨.setStatus _ _, .ok _⟩ | ⟨.install _, _⟩ | ⟨.heartbeat _ _ _, _⟩ => true
  | _ => false

theorem Reply.eq_error_of_abort? {reply : Reply α} {a : Abort} (h : reply.abort? = some a) :
    reply = .error a := by
  cases reply with
  | ok value => exact nomatch h
  | error b => exact congrArg Except.error (Option.some.inj h)

theorem Told.isDone_of_abort {x : Told} {r : Request} (hr : r.isDirectoryCall = true)
    (hx : x.request = r) {a : Abort} (ha : x.abort? = some a) : x.isDone = false := by
  obtain ⟨request, answer⟩ := x
  subst hx
  cases request with
  | setStatus key s =>
    cases answer with
    | ok u => exact nomatch ha
    | error b => rfl
  | homeStatus | databases | status | onlineNodes => rfl
  | install | heartbeat | note => exact nomatch hr

namespace Check

/-- How a check ends whose call `x` of the directory fails with `f`, and what it leaves.  Without the
fault it makes the exchanges `before` and then `x`. -/
structure Cut (e : Surroundings σ) (k : Nat) (f : ClusterFailure) (c : Check α) (s : σ)
    (before : List (Exchange σ)) (x : Exchange σ) : Prop where
  /-- It ends with the failure. -/
  reply : ((c.run.within (e.failingAt k f)).finish 0 ⟨s, []⟩).1.1 = .error (.failure f)
  /-- The call that failed is the last of its requests, and the others are those without the fault. -/
  asked : ((c.run.within (e.failingAt k f)).finish 0 ⟨s, []⟩).2.asked =
    before.map Exchange.request ++ [x.request]
  /-- It leaves the state in which the call was made. -/
  state : ((c.run.within (e.failingAt k f)).finish 0 ⟨s, []⟩).2.now = x.before
  /-- Up to that call everything is answered and changed as without the fault. -/
  exchanges : ∃ cut z, c.run.trace (e.failingAt k f) ⟨s, []⟩ = cut ++ [z] ∧
    cut.map Exchange.unwatched = before ∧ z.request = x.request ∧
    z.told.abort? = some (.failure f)
  /-- So the writes, the installs and the heartbeats are those without the fault. -/
  done : ((c.run.trace (e.failingAt k f) ⟨s, []⟩).map Exchange.unwatched).filter
    (fun y => y.told.isDone) = before.filter fun y => y.told.isDone

/-- Wherever a call of the directory fails, the check is cut short there; and if it does not come so
far, nothing is different. -/
structure CutsCleanly (e : Surroundings σ) (c : Check α) : Prop where
  /-- The call that fails is made. -/
  cut : ∀ (k : Nat) (f : ClusterFailure) (s : σ) (before after : List (Exchange σ))
    (x : Exchange σ), c.run.trace e s = before ++ x :: after → x.request.isDirectoryCall = true →
    callsIn before = k → c.Cut e k f s before x
  /-- The call that fails is not made. -/
  whole : ∀ (k : Nat) (f : ClusterFailure) (s : σ), callsIn (c.run.trace e s) ≤ k →
    (c.run.trace (e.failingAt k f) ⟨s, []⟩).map Exchange.unwatched = c.run.trace e s ∧
      ((c.run.within (e.failingAt k f)).finish 0 ⟨s, []⟩).1.1 =
        ((c.run.within e).finish 0 s).1.1 ∧
      ((c.run.within (e.failingAt k f)).finish 0 ⟨s, []⟩).2.now = ((c.run.within e).finish 0 s).2

/-- **A check that ends at the first failure is cut cleanly.** -/
theorem Prompt.cutsCleanly {c : Check α} (hc : c.Prompt) (e : Surroundings σ) :
    c.CutsCleanly e where
  cut := by
    intro k f s before after x ht hx hk
    obtain ⟨cut, z, rest, htrace, hcut, hrequest, habort, hafter⟩ :=
      Program.trace_failingAt (f := f) (w := ⟨s, []⟩) ht hx (by simpa [Watched.calls] using hk)
    -- the refusal is the first failure, so it ends the check
    have hends := hc.ends (e := e.failingAt k f) ⟨s, []⟩
    rw [htrace, List.map_append, List.map_cons] at hends
    obtain ⟨hreply, hrest⟩ := hends.of_abort habort
    obtain rfl := List.map_eq_nil_iff.1 hrest
    obtain ⟨q, hq, houtcome⟩ := Program.trace_split htrace
    have hlast : (c.run.outcome (e.failingAt k f) ⟨s, []⟩).2 = z.after := by
      rw [← houtcome]
      cases q with
      | done a => rfl
      | ask r next => cases hq
    obtain ⟨hfirst, hsecond⟩ :=
      Prod.mk.inj (Program.finish_within (e := e.failingAt k f) c.run 0 ⟨s, []⟩)
    rw [hafter] at hlast
    refine ⟨?_, ?_, ?_, ⟨cut, z, htrace, hcut, hrequest, habort⟩, ?_⟩
    · rw [hfirst]
      exact Reply.eq_error_of_abort? hreply
    · rw [hsecond, hlast]
      rfl
    · rw [hsecond, hlast]
    · rw [htrace, List.map_append, hcut, List.filter_append, List.map_singleton]
      have hz : z.unwatched.told.isDone = false := Told.isDone_of_abort hx hrequest habort
      rw [List.filter_cons_of_neg (by simp [hz]), List.filter_nil, List.append_nil]
  whole := by
    intro k f s hk
    obtain ⟨htrace, houtcome⟩ := Program.run_failingAt (f := f) (p := c.run) (w := ⟨s, []⟩)
      (by simpa [Watched.calls] using hk)
    obtain ⟨hreply, hstate⟩ :=
      Prod.mk.inj ((Program.finish_within (e := e.failingAt k f) c.run 0 ⟨s, []⟩).trans houtcome)
    obtain ⟨hreply', hstate'⟩ := Prod.mk.inj (Program.finish_within (e := e) c.run 0 s)
    refine ⟨htrace, hreply.trans hreply'.symm, ?_⟩
    rw [hstate, hstate']

end Check

namespace Repair

/-- What a repair check has just been told when it makes a request: before a write, that nobody else
serves the database or that a copy of it was installed; and before it counts a recovery, that the
write succeeded. -/
def Backed (home : Node) (h : List Told) : Request → Prop
  | .setStatus key status => key.node = home ∧ status = .online ∧ ∃ earlier y, h = earlier ++ [y] ∧
      (y.request = .note (.report (.lastCopyTaken home key.database)) ∨
        ∃ source : InstallSource, source.database = key.database ∧ y = ⟨.install source, .ok true⟩)
  | .note (.count (.recoveries label)) => label ≠ "failed" → ∃ earlier key since,
      h = earlier ++ ⟨.setStatus key .online, .ok ()⟩ :: since ∧
        ∀ y ∈ since, ∃ r, y.request = .note (.report r)
  | _ => True

variable {home : Node} {database : Database} {h : List Told}

theorem promote_backed : Check.Meets (.heard (Backed home)) (fun _ _ => True)
    (promote home database) h := by
  refine Check.meets_bind.2 (Check.heard_report trivial ?_)
  refine Check.meets_bind.2 (Check.heard_setStatus ⟨rfl, rfl, h, _, rfl, .inl rfl⟩ ?_)
  refine Check.meets_bind.2 (Check.heard_count ?_ (Check.meets_pure.2 trivial))
  exact fun _ => ⟨_, _, [], rfl, nofun⟩

theorem install_backed {source : InstallSource} : Check.Meets (.heard (Backed home))
    (fun _ _ => True) (install home source) h := by
  refine Check.meets_bind.2 (Check.heard_report trivial ?_)
  refine Check.meets_bind.2 (Check.heard_install trivial fun reply => ?_)
  split
  · rename_i hreason
    obtain rfl := failureReason_eq_none.1 hreason
    refine Check.meets_bind.2
      (Check.heard_setStatus ⟨rfl, rfl, _, _, rfl, .inr ⟨source, rfl, rfl⟩⟩ ?_)
    refine Check.meets_bind.2 (Check.heard_report trivial ?_)
    refine Check.meets_bind.2 (Check.heard_count ?_ (Check.meets_pure.2 trivial))
    -- between the write and the count there is one line on record
    refine fun _ => ⟨_, _, [⟨.note (.report (.recoveryCompleted home source.database)), ()⟩],
      List.append_assoc _ _ _, ?_⟩
    exact List.forall_mem_singleton.2 ⟨_, rfl⟩
  · refine Check.meets_bind.2 (Check.heard_report trivial ?_)
    refine Check.meets_bind.2 (Check.heard_count ?_ (Check.meets_pure.2 trivial))
    exact fun hlabel => absurd rfl hlabel

/-- **A repair check writes and counts only what is backed by what it was just told.** -/
theorem check_backed (home : Node) : Check.Meets (.heard (Backed home)) (fun _ _ => True)
    (check home) [] := by
  refine Check.meets_bind.2 (Check.heard_homeStatus trivial fun standing => ?_)
  split
  · refine Check.meets_bind.2 (Check.heard_databases trivial fun hosted => ?_)
    refine Check.Meets.gather (I := fun _ => True) (fun database _ h _ => ?_) trivial
    refine Check.meets_bind.2 (Check.heard_status trivial fun status => ?_)
    split
    · refine Check.meets_bind.2 (Check.meets_bind.2 (Check.meets_bind.2
        (Check.heard_onlineNodes trivial fun nodes => Check.meets_pure.2 ?_)))
      split
      · exact Check.meets_bind.2 (promote_backed.mono fun _ _ _ => by simp)
      · exact Check.meets_bind.2 (install_backed.mono fun _ _ _ => by simp)
    · exact Check.meets_pure.2 trivial
  · exact Check.meets_bind.2 (Check.heard_report trivial (Check.meets_pure.2 trivial))

/-- A copy whose write fails is not recovered. -/
structure LeavesUnrecovered (e : Surroundings σ) (home : Node) : Prop where
  /-- A write that fails is one of a local copy that was to go online, and it leaves the state that
  the install of that copy left, or the line that it is the last one. -/
  write : ∀ (k : Nat) (f : ClusterFailure) (s : σ) (before after : List (Exchange σ))
    (x : Exchange σ) (key : CopyKey) (status : CopyStatus),
    (check home).run.trace e s = before ++ x :: after → x.request = .setStatus key status →
    callsIn before = k →
    key.node = home ∧ status = .online ∧ ∃ earlier y, before = earlier ++ [y] ∧
      (((check home).run.within (e.failingAt k f)).finish 0 ⟨s, []⟩).2.now = y.after ∧
      (y.request = .note (.report (.lastCopyTaken home key.database)) ∨
        ∃ source : InstallSource, source.database = key.database ∧
          y.told = ⟨.install source, .ok true⟩)
  /-- A recovery is counted only after a write that succeeded, with lines on record between. -/
  counted : ∀ (k : Nat) (f : ClusterFailure) (s : σ) (before after : List (Exchange (Watched σ)))
    (x : Exchange (Watched σ)) (label : String),
    (check home).run.trace (e.failingAt k f) ⟨s, []⟩ = before ++ x :: after →
    x.request = .note (.count (.recoveries label)) → label ≠ "failed" →
    ∃ earlier key since, before.map Exchange.told =
        earlier ++ ⟨.setStatus key .online, .ok ()⟩ :: since ∧
      ∀ y ∈ since, ∃ r, y.request = .note (.report r)

theorem leavesUnrecovered (e : Surroundings σ) (home : Node) : LeavesUnrecovered e home where
  write := by
    intro k f s before after x key status ht hx hk
    have hbacked := (check_backed home).trace ht
    rw [hx] at hbacked
    obtain ⟨hnode, hstatus, told, y', htold, hy'⟩ := hbacked
    obtain ⟨earlier, last, rfl, -, hlast⟩ := List.map_eq_append_iff.1 htold
    obtain ⟨y, rfl, rfl⟩ := List.map_eq_singleton_iff.1 hlast
    refine ⟨hnode, hstatus, earlier, y, rfl, ?_, hy'⟩
    have hcall : x.request.isDirectoryCall = true := hx ▸ rfl
    rw [(((check_prompt home).cutsCleanly e).cut k f s _ _ x ht hcall hk).state]
    -- the write follows that exchange
    rw [List.append_assoc] at ht
    obtain ⟨q, hq, -⟩ := Program.trace_split ht
    cases q with
    | done a => exact nomatch hq
    | ask r next => exact congrArg Exchange.before (List.cons.inj hq).1.symm
  counted := by
    intro k f s before after x label ht hx hlabel
    have hbacked := (check_backed home).trace ht
    rw [hx] at hbacked
    exact hbacked hlabel

end Repair

/-- **A call of the directory that fails cuts a check short.**  In any surroundings, for any call and
any failure, each of the three checks ends with that failure where it makes the call; and a copy
that was installed but could not be set online counts for nothing. -/
theorem Check.clean_cut (e : Surroundings σ) (home : Node) (policy : DemotionPolicy) :
    (Repair.check home).CutsCleanly e ∧ (Audit.check home).CutsCleanly e ∧
      (Stall.check home policy).CutsCleanly e ∧ Repair.LeavesUnrecovered e home :=
  ⟨(Repair.check_prompt home).cutsCleanly e, (Audit.check_prompt home).cutsCleanly e,
    (Stall.check_prompt home policy).cutsCleanly e, Repair.leavesUnrecovered e home⟩

/-- Every install brings a current copy, after a while. -/
def willing : Installer (World Unit) := fun _ => do
  Process.wait 5
  return .ok true

/-- A node whose only copy is offline, and a peer that serves the database. -/
def onePeer : World Unit where
  directory := ((Directory.create "n1" .online).performAll [.enroll "n2" .online, .host "Orders",
    .setStatus ⟨"n1", "Orders"⟩ .offline, .setStatus ⟨"n2", "Orders"⟩ .online]).2
  own := ()

/-- The surroundings of that node; nobody is ever sent a heartbeat. -/
def willingCluster : Surroundings (World Unit) :=
  World.surroundings "n1" willing fun _ _ _ => pure (.ok .empty)

/-- The fifth call is the write after the install, and it fails as a heartbeat might. -/
theorem Check.clean_cut_unwritten :
    let x := ((Repair.check "n1").run.within
      (willingCluster.failingAt 4 (.allUnreachable "Orders"))).finish 0 ⟨onePeer, []⟩
    x.1.1 = .error (.failure (.allUnreachable "Orders")) ∧
      x.2.asked = [.homeStatus, .databases, .status ⟨"n1", "Orders"⟩, .onlineNodes "Orders",
        .note (.report (.recoveryStarted "n1" "n2" "Orders")), .install ⟨"Orders", "n2", ["n2"]⟩,
        .setStatus ⟨"n1", "Orders"⟩ .online] ∧
      x.2.now.directory = onePeer.directory ∧
      x.2.now.journal.tally.count (.recoveries "recovered") = 0 := by
  obtain ⟨before, x, after, hsplit, hasked, hcall, hcalls, hdirectory, htally⟩ :
      ∃ before x after, (Repair.check "n1").run.trace willingCluster onePeer =
        before ++ x :: after ∧ before.map Exchange.request ++ [x.request] =
          [.homeStatus, .databases, .status ⟨"n1", "Orders"⟩, .onlineNodes "Orders",
            .note (.report (.recoveryStarted "n1" "n2" "Orders")),
            .install ⟨"Orders", "n2", ["n2"]⟩, .setStatus ⟨"n1", "Orders"⟩ .online] ∧
        x.request.isDirectoryCall = true ∧ callsIn before = 4 ∧
        x.before.directory = onePeer.directory ∧
        x.before.journal.tally.count (.recoveries "recovered") = 0 := by
    let t := (Repair.check "n1").run.trace willingCluster onePeer
    refine ⟨t.take 6, t.get ⟨6, by decide +kernel⟩, t.drop 7, ?_, by decide +kernel,
      by decide +kernel, by decide +kernel, by decide +kernel, by decide +kernel⟩
    rw [List.get_eq_getElem, ← List.drop_eq_getElem_cons, List.take_append_drop]
  have hcut := (clean_cut willingCluster "n1" ⟨true, 100⟩).1.cut 4 (.allUnreachable "Orders")
    onePeer before after x hsplit hcall hcalls
  refine ⟨hcut.reply, hcut.asked.trans hasked, ?_, ?_⟩
  · rw [hcut.state, hdirectory]
  · rw [hcut.state, htally]

end Upkeep
