import Upkeep.Proofs.Cycle.Failing

/-!
# Surroundings with one fault

`Surroundings.failingAt` are surroundings in which one call of the directory fails without effect,
and everything else is as it was.  The calls are counted by what is written down of the requests.

* `Program.trace_failingAt` : a program that meets the fault leaves the trace that it leaves without
  it, up to the call that fails.
* `Program.run_failingAt` : a program that does not come that far does not notice.
-/

namespace Upkeep

variable {σ α : Type}

namespace Watched

/-- How many calls of the directory were written down. -/
def calls (w : Watched σ) : Nat := w.asked.countP Request.isDirectoryCall

/-- Refuses a call of the directory, without effect, if `k` calls came before it. -/
def refuse (k : Nat) (f : ClusterFailure) (r : Request) (call : Watched σ → Reply α × Watched σ)
    (w : Watched σ) : Reply α × Watched σ :=
  if w.calls = k then (.error (.failure f), w.ask r) else call w

variable {k : Nat} {f : ClusterFailure} {r : Request} {call : Watched σ → Reply α × Watched σ}
  {w : Watched σ}

theorem refuse_of_ne (h : w.calls ≠ k) : refuse k f r call w = call w := if_neg h

theorem refuse_of_eq (h : w.calls = k) :
    refuse k f r call w = (.error (.failure f), w.ask r) := if_pos h

end Watched

/-- The same surroundings, except that of the calls of the directory the one fails with `f` that
comes after `k` others. -/
def Surroundings.failingAt (e : Surroundings σ) (k : Nat) (f : ClusterFailure) :
    Surroundings (Watched σ) where
  home := e.home
  directory.homeStatus := Watched.refuse k f .homeStatus e.watched.directory.homeStatus
  directory.databases := Watched.refuse k f .databases e.watched.directory.databases
  directory.status key := Watched.refuse k f (.status key) (e.watched.directory.status key)
  directory.setStatus key s := Watched.refuse k f (.setStatus key s) (e.watched.directory.setStatus key s)
  directory.onlineNodes database :=
    Watched.refuse k f (.onlineNodes database) (e.watched.directory.onlineNodes database)
  installer := e.watched.installer
  transport := e.watched.transport
  note := e.watched.note

/-- An exchange without what was written down. -/
def Exchange.unwatched (x : Exchange (Watched σ)) : Exchange σ :=
  ⟨x.request, x.before.now, x.answer, x.after.now⟩

/-- How many exchanges are calls of the directory. -/
def callsIn (t : List (Exchange σ)) : Nat := t.countP fun x => x.request.isDirectoryCall

section Exchanges

variable {e : Surroundings σ} {k : Nat} {f : ClusterFailure} {r : Request} {w : Watched σ}
  {t : List (Exchange σ)}

/-- Any request but the call that fails is answered as before, and written down. -/
theorem exchange_failingAt (h : r.isDirectoryCall = true → w.calls ≠ k) :
    ((e.failingAt k f).exchange r w).answer = (e.exchange r w.now).answer ∧
      ((e.failingAt k f).exchange r w).after =
        ⟨(e.exchange r w.now).after, w.asked ++ [r]⟩ := by
  have hwatched := e.exchange_watched r w
  cases r with
  | homeStatus | databases | status | setStatus | onlineNodes =>
    have hcall : ∀ {α : Type} {call : Watched σ → Reply α × Watched σ} {r : Request},
        Watched.refuse k f r call w = call w := Watched.refuse_of_ne (h rfl)
    exact ⟨(congrArg Prod.fst hcall).trans hwatched.1, (congrArg Prod.snd hcall).trans hwatched.2⟩
  | install | heartbeat | note => exact hwatched

/-- The call that fails fails so, and leaves nothing behind. -/
theorem exchange_refused (hr : r.isDirectoryCall = true) (h : w.calls = k) :
    ((e.failingAt k f).exchange r w).told.abort? = some (.failure f) ∧
      ((e.failingAt k f).exchange r w).after = ⟨w.now, w.asked ++ [r]⟩ := by
  cases r with
  | homeStatus | databases | status | setStatus | onlineNodes =>
    have habort : ∀ {α : Type} {call : Watched σ → Reply α × Watched σ} {r : Request},
        Reply.abort? (Watched.refuse k f r call w).1 = some (.failure f) := by
      intro α call r
      rw [Watched.refuse_of_eq h]
      rfl
    exact ⟨habort, congrArg Prod.snd (Watched.refuse_of_eq h)⟩
  | install | heartbeat | note => exact nomatch hr

theorem unwatched_failingAt (h : r.isDirectoryCall = true → w.calls ≠ k) :
    ((e.failingAt k f).exchange r w).unwatched = e.exchange r w.now := by
  obtain ⟨hanswer, hafter⟩ := exchange_failingAt (e := e) (f := f) h
  exact congrArg₂ (fun x (w' : Watched σ) => (⟨r, w.now, x, w'.now⟩ : Exchange σ)) hanswer hafter

/-- Each exchange that goes by leaves as many calls to come. -/
theorem calls_step (w : Watched σ) (r : Request) (s : σ) (t : List (Exchange σ)) :
    (⟨s, w.asked ++ [r]⟩ : Watched σ).calls + callsIn t =
      w.calls + callsIn (e.exchange r w.now :: t) := by
  cases hr : r.isDirectoryCall <;>
    simp [Watched.calls, callsIn, List.countP_append, hr, Nat.add_assoc, Nat.add_comm 1]

/-- A call that fails later is not the next one. -/
theorem calls_ne (h : w.calls + callsIn (e.exchange r w.now :: t) ≤ k) :
    r.isDirectoryCall = true → w.calls ≠ k := by
  intro hr
  have hcons : callsIn (e.exchange r w.now :: t) = callsIn t + 1 := List.countP_cons_of_pos hr
  omega

end Exchanges

namespace Program

variable {e : Surroundings σ} {k : Nat} {f : ClusterFailure} {w : Watched σ}

/-- After a request that does not meet the fault a program goes on as it would without it. -/
theorem step_failingAt {r : Request} (next : r.Answer → Program α)
    (h : r.isDirectoryCall = true → w.calls ≠ k) :
    let e' := e.failingAt k f
    let w' : Watched σ := ⟨(e.exchange r w.now).after, w.asked ++ [r]⟩
    (ask r next).trace e' w =
        e'.exchange r w :: (next (e.exchange r w.now).answer).trace e' w' ∧
      (ask r next).outcome e' w = (next (e.exchange r w.now).answer).outcome e' w' := by
  obtain ⟨hanswer, hafter⟩ := exchange_failingAt (e := e) (f := f) h
  exact ⟨congrArg (_ :: ·) (congrArg₂ (fun x w' => (next x).trace _ w') hanswer hafter),
    congrArg₂ (fun x w' => (next x).outcome _ w') hanswer hafter⟩

/-- **Up to the call that fails a program leaves the trace that it leaves without the fault.** -/
theorem trace_failingAt {p : Program α} {before after : List (Exchange σ)} {x : Exchange σ}
    (ht : p.trace e w.now = before ++ x :: after) (hx : x.request.isDirectoryCall = true)
    (hk : w.calls + callsIn before = k) :
    ∃ cut z rest, p.trace (e.failingAt k f) w = cut ++ z :: rest ∧
      cut.map Exchange.unwatched = before ∧ z.request = x.request ∧
      z.told.abort? = some (.failure f) ∧
      z.after = ⟨x.before, w.asked ++ before.map Exchange.request ++ [x.request]⟩ := by
  induction p generalizing w before with
  | done a => simp at ht
  | ask r next ih =>
    cases before with
    | nil =>
      -- the fault is met
      obtain ⟨rfl, -⟩ := List.cons.inj ht
      obtain ⟨habort, hafter⟩ := exchange_refused (e := e) (f := f) (w := w) hx hk
      exact ⟨[], _, _, rfl, rfl, rfl, habort, by simpa using hafter⟩
    | cons y before =>
      obtain ⟨rfl, hrest⟩ := List.cons.inj ht
      have hearly := calls_ne (Nat.le_of_eq hk)
      obtain ⟨cut, z, rest, htrace, hcut, hz⟩ :=
        ih _ (w := ⟨_, w.asked ++ [r]⟩) hrest ((calls_step w r _ before).trans hk)
      refine ⟨_ :: cut, z, rest, (step_failingAt next hearly).1.trans
        (congrArg (_ :: ·) htrace), ?_, ?_⟩
      · rw [List.map_cons, hcut, unwatched_failingAt hearly]
      · simpa using hz

/-- **A program that does not come as far as the call that fails does not notice.** -/
theorem run_failingAt {p : Program α} (hk : w.calls + callsIn (p.trace e w.now) ≤ k) :
    (p.trace (e.failingAt k f) w).map Exchange.unwatched = p.trace e w.now ∧
      p.outcome (e.failingAt k f) w = ((p.outcome e w.now).1,
        ⟨(p.outcome e w.now).2, w.asked ++ (p.trace e w.now).map Exchange.request⟩) := by
  induction p generalizing w with
  | done a => exact ⟨rfl, by simp [outcome]⟩
  | ask r next ih =>
    have hearly := calls_ne hk
    obtain ⟨htrace, houtcome⟩ := step_failingAt (f := f) next hearly
    obtain ⟨ihtrace, ihoutcome⟩ :=
      ih (e.exchange r w.now).answer (w := ⟨(e.exchange r w.now).after, w.asked ++ [r]⟩)
        (Nat.le_trans (Nat.le_of_eq (calls_step w r _ _)) hk)
    constructor
    · rw [htrace, List.map_cons, ihtrace, unwatched_failingAt hearly]
      rfl
    · refine houtcome.trans (ihoutcome.trans ?_)
      simp

end Program

end Upkeep
