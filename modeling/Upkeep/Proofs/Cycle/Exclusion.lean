import Upkeep.Proofs.Cycle.Counts
import Upkeep.Proofs.Cycle.Shadows
import Upkeep.World

/-!
# Mutual exclusion of cycles

Any number of calls of one cycle, interleaved in any order, run the checks one at a time.

* `Pool.exclusion` : **mutual exclusion**.  After every turn at most one call is running the checks,
  and the flag tells whether one is.  A call that begins meanwhile passes over: it ends at once, and
  all that it asks for are two notes.  The writes of one call stand together, with none of another
  call between them.  Once all calls have ended the flag is down, and each call was counted once, as
  a cycle or as one that was passed over.

The requests are told from one another by running the calls in surroundings that write them down
(`Surroundings.watched`).  `Pool.ledger` attributes each request to the call whose turn it was.
-/

namespace Upkeep

variable {σ : Type}

/-- Whether a request gives a copy a status. -/
def Request.isWrite : Request → Bool
  | .setStatus _ _ => true
  | _ => false

/-- The requests of a call that passes over. -/
def Cycle.passNotes (home : Node) : List Request :=
  [.note (.report (.cycleSkipped home)), .note (.count .skippedCycles)]

/-- The first requests of a call that finds the flag down. -/
def Cycle.openNotes (home : Node) : List Request :=
  [.note (.report (.cycleStarted home)), .note (.count .cycles)]

/-- Of one counter, `total` tells how often it was counted: only a note of it moves it. -/
structure Surroundings.Records (e : Surroundings σ) (c : Counter) (total : σ → Nat) : Prop where
  /-- A note of the counter moves it by one. -/
  counts : ∀ s, total (e.note (.count c) s) = total s + 1
  /-- No other note moves it. -/
  others : ∀ n s, n ≠ .count c → total (e.note n s) = total s
  /-- Neither the directory nor the installer nor the transport moves it. -/
  answers : ∀ r, (∀ n, r ≠ .note n) → ∀ s, (e.answer r).Makes (fun s s' => total s' = total s) s

namespace Pool

/-- The turn of a watched pool, judged by what a cycle may count. -/
abbrev WatchedTurn (e : Surroundings σ) : Pool (Watched σ) → Nat → Pool (Watched σ) → Prop :=
  Turn e.watched (fun _ _ => True) (Watched.Grows Request.IsUncounted)
    fun outcome _ => outcome ≠ .skipped

/-- A watched pool that is sound. -/
abbrev WatchedSound : Pool (Watched σ) → Prop :=
  Sound (fun _ => True) (fun _ _ => True) (Watched.Grows Request.IsUncounted)
    fun outcome _ => outcome ≠ .skipped

variable {e : Surroundings σ} {policy : DemotionPolicy} {p : Pool σ} {q q' : Pool (Watched σ)}

theorem asked_passed (w : Watched σ) :
    (Cycle.passed e.watched w).asked = w.asked ++ Cycle.passNotes e.home :=
  List.append_assoc _ _ _

theorem asked_opened (w : Watched σ) :
    (Cycle.opened e.watched w).asked = w.asked ++ Cycle.openNotes e.home :=
  List.append_assoc _ _ _

theorem watched_admits (e : Surroundings σ) : e.watched.Admits (fun _ => True) (fun _ _ => True)
    (Watched.Grows Request.IsUncounted) :=
  ⟨fun _ => trivial, fun _ _ _ _ _ => trivial, fun _ _ => trivial, fun _ _ _ _ => trivial,
    fun _ _ _ _ => trivial⟩

theorem watched_turn (e : Surroundings σ) (policy : DemotionPolicy) (hq : q.WatchedSound)
    (i : Nat) :
    WatchedTurn e q i (q.step e.watched policy i) :=
  step_turn (watched_admits e)
    (fun w _ => (Cycle.rest_uncounted e.home policy).watched e w) hq i

theorem watched_sound (e : Surroundings σ) (policy : DemotionPolicy) (hq : q.WatchedSound)
    (i : Nat) : (q.step e.watched policy i).WatchedSound :=
  (watched_turn e policy hq i).sound (watched_admits e) hq

section Counts

/-! ### Every call is counted once -/

/-- The calls that have raised the flag were counted as cycles, the others that have begun as passed
over. -/
structure Counted (q : Pool (Watched σ)) : Prop where
  /-- Every call that has raised the flag was counted as a cycle. -/
  cycles : q.shared.world.asked.count (.note (.count .cycles)) = q.calls.countP Call.hasRun
  /-- Every call that has passed over was counted as such. -/
  skipped : q.shared.world.asked.count (.note (.count .skippedCycles)) =
    q.calls.countP Call.isSkipped

theorem count_of_grows {w w' : Watched σ} (h : w.Grows Request.IsUncounted w') :
    w'.asked.count (.note (.count .cycles)) = w.asked.count (.note (.count .cycles)) ∧
      w'.asked.count (.note (.count .skippedCycles)) =
        w.asked.count (.note (.count .skippedCycles)) := by
  obtain ⟨new, hnew, hP⟩ := h
  have hcycles : new.count (.note (.count .cycles)) = 0 :=
    List.count_eq_zero.2 fun hmem => (hP _ hmem).1 rfl
  have hskipped : new.count (.note (.count .skippedCycles)) = 0 :=
    List.count_eq_zero.2 fun hmem => (hP _ hmem).2 rfl
  rw [hnew, List.count_append, List.count_append, hcycles, hskipped]
  exact ⟨rfl, rfl⟩

theorem hasRun_of_reaches {R G : Watched σ → Watched σ → Prop} {c : Call (Watched σ)}
    {w : Watched σ} (h : c.Reaches R G (fun outcome _ => outcome ≠ .skipped) w) :
    c.hasRun = true ∧ c.isSkipped = false := by
  cases c with
  | fresh => exact h.elim
  | running ms rest => exact ⟨rfl, rfl⟩
  | ended outcome =>
    have hne : outcome ≠ .skipped := h
    simp [hne]

theorem counted_ofFresh (n : Nat) (s : σ) : (ofFresh n ⟨false, ⟨s, []⟩⟩).Counted := by
  constructor <;> simp [ofFresh, List.countP_replicate]

/-- A turn counts a call only as it begins. -/
theorem Turn.counted {i : Nat} (h : WatchedTurn e q i q') (hq : q.Counted) : q'.Counted := by
  cases h with
  | idle => exact hq
  | passes hi hbusy =>
    have hran := countP_set_add hi Call.hasRun (.ended .skipped)
    have hskipped := countP_set_add hi Call.isSkipped (.ended .skipped)
    simp at hran hskipped
    constructor
    · simp [asked_passed, Cycle.passNotes, hran, hq.cycles]
    · simp [asked_passed, Cycle.passNotes, hskipped, hq.skipped]
  | @begins c w hi hidle hs hc =>
    -- the notes of the beginning count the call, and nothing after them counts one
    obtain ⟨hc, hc'⟩ := hasRun_of_reaches hc
    have hran := countP_set_add hi Call.hasRun c
    have hskipped := countP_set_add hi Call.isSkipped c
    simp [hc, hc'] at hran hskipped
    obtain ⟨hcycles', hskipped'⟩ := count_of_grows (Watched.grows_of_steps hs)
    constructor
    · simp [hcycles', asked_opened, Cycle.openNotes, hran, hq.cycles]
    · simp [hskipped', asked_opened, Cycle.openNotes, hskipped, hq.skipped]
  | @goesOn ms rest c w hi hs hc =>
    obtain ⟨hc, hc'⟩ := hasRun_of_reaches hc
    have hran := countP_set_add hi Call.hasRun c
    have hskipped := countP_set_add hi Call.isSkipped c
    simp [hc, hc'] at hran hskipped
    obtain ⟨hcycles', hskipped'⟩ := count_of_grows (Watched.grows_of_steps hs)
    constructor
    · simp [hcycles', hran, hq.cycles]
    · simp [hskipped', hskipped, hq.skipped]

theorem counted_steps (hq : q.WatchedSound) (hcounted : q.Counted) (order : List Nat) :
    (q.steps e.watched policy order).Counted := by
  induction order generalizing q with
  | nil => exact hcounted
  | cons i order ih =>
    exact ih (watched_sound e policy hq i) ((watched_turn e policy hq i).counted hcounted)

end Counts

section Ledger

/-! ### Who writes -/

/-- The requests of each turn, with the call whose turn it is. -/
def ledger (e : Surroundings σ) (policy : DemotionPolicy) :
    List Nat → Pool (Watched σ) → List (Nat × Request)
  | [], _ => []
  | i :: order, q =>
    let q' := q.step e.watched policy i
    (q'.shared.world.asked.drop q.shared.world.asked.length).map (i, ·) ++ ledger e policy order q'

/-- The calls that wrote, each as often as it did. -/
def writers (entries : List (Nat × Request)) : List Nat :=
  (entries.filter fun entry => entry.2.isWrite).map Prod.fst

/-- Nothing that was written down is lost, and only a call beside which none is running writes. -/
theorem Turn.asked {i : Nat} (hq : q.WatchedSound) (h : WatchedTurn e q i q') :
    ∃ new, q'.shared.world.asked = q.shared.world.asked ++ new ∧
      ((∀ r ∈ new, r.isWrite = false) ∨
        ∀ j c, j ≠ i → q.calls[j]? = some c → c.isRunning = false) := by
  cases h with
  | idle => exact ⟨[], by simp, .inl fun _ hr => nomatch hr⟩
  | passes => exact ⟨_, asked_passed _, .inl (by simp [Cycle.passNotes, Request.isWrite])⟩
  | begins _ hidle hs _ =>
    obtain ⟨new, hnew, -⟩ := Watched.grows_of_steps hs
    rw [asked_opened, List.append_assoc] at hnew
    exact ⟨_, hnew, .inr fun j c _ hj => hq.not_running hidle (List.mem_of_getElem? hj)⟩
  | goesOn hi hs _ =>
    obtain ⟨new, hnew, -⟩ := Watched.grows_of_steps hs
    refine ⟨new, hnew, .inr fun j c hj hc => ?_⟩
    by_contra hrun
    exact hj (hq.unique hc (by simpa using hrun) hi rfl)

/-- After its turn a call has begun. -/
theorem Turn.hasBegun {i : Nat} (h : WatchedTurn e q i q') {c : Call (Watched σ)}
    (hc : q'.calls[i]? = some c) : c.hasBegun = true := by
  have hset : ∀ {c'}, c'.hasBegun = true → (q.calls.set i c')[i]? = some c →
      c.hasBegun = true := by
    intro c' hc' hget
    rw [List.getElem?_set'] at hget
    simp only [if_true, Functor.map, Option.map_eq_some_iff] at hget
    obtain ⟨_, _, rfl⟩ := hget
    exact hc'
  cases h with
  | idle h =>
    cases c with
    | fresh => exact nomatch h _ hc
    | running ms rest => rfl
    | ended outcome => rfl
  | passes => exact hset rfl hc
  | begins _ _ _ hreached => exact hset hreached.hasBegun hc
  | goesOn _ _ hreached => exact hset hreached.hasBegun hc

/-- The writes of a turn come before those of the turns after it. -/
theorem writers_cons (e : Surroundings σ) (policy : DemotionPolicy) (hq : q.WatchedSound)
    (i : Nat) (order : List Nat) :
    ∃ n, writers (ledger e policy (i :: order) q) =
        List.replicate n i ++ writers (ledger e policy order (q.step e.watched policy i)) ∧
      (n = 0 ∨ ∀ j c, j ≠ i → q.calls[j]? = some c → c.isRunning = false) := by
  obtain ⟨new, hnew, hwriter⟩ := (watched_turn e policy hq i).asked hq
  refine ⟨(new.filter Request.isWrite).length, ?_, hwriter.imp_left fun hno => ?_⟩
  · simp [ledger, writers, hnew, List.filter_map, Function.comp_def, List.map_const']
  · simpa using hno

/-- A call that has ended writes no more. -/
theorem not_mem_writers (hq : q.WatchedSound) {i : Nat}
    (hi : ∀ c, q.calls[i]? = some c → c.outcome?.isSome) (order : List Nat) :
    i ∉ writers (ledger e policy order q) := by
  induction order generalizing q with
  | nil => exact List.not_mem_nil
  | cons k order ih =>
    by_cases hk : i = k
    · subst hk
      simpa [ledger, step_of_idle hi] using ih hq hi
    · obtain ⟨n, hcons, -⟩ := writers_cons e policy hq k order
      have hlater := ih (watched_sound e policy hq k) (by rwa [getElem?_step_ne hk])
      rw [hcons, List.mem_append, List.mem_replicate]
      exact fun h => h.elim (fun h => hk h.2) hlater

/-- What does not begin with a repeated entry lies behind it. -/
theorem sublist_of_replicate {i k n : Nat} {l later : List Nat} (hi : i ≠ k)
    (h : (i :: l).Sublist (List.replicate n k ++ later)) : (i :: l).Sublist later := by
  induction n with
  | zero => simpa using h
  | succ n ih =>
    rw [List.replicate_succ, List.cons_append] at h
    cases h with
    | cons _ h => exact ih h
    | cons_cons _ _ => exact absurd rfl hi

/-- Once a call has begun, no other call writes before it writes again. -/
theorem not_sublist_writers (hq : q.WatchedSound) {i j : Nat} (hj : j ≠ i)
    {c : Call (Watched σ)} (hi : q.calls[i]? = some c) (hc : c.hasBegun = true)
    (order : List Nat) : ¬ [j, i].Sublist (writers (ledger e policy order q)) := by
  induction order generalizing q c with
  | nil => simp [ledger, writers]
  | cons k order ih =>
    intro hsub
    have hi_mem := hsub.subset (List.mem_cons_of_mem j List.mem_cons_self)
    obtain ⟨n, hcons, hwriter⟩ := writers_cons e policy hq k order
    by_cases hk : i = k
    · -- it is the turn of `i`, after which it still has begun
      subst hk
      obtain ⟨h, -⟩ := List.getElem?_eq_some_iff.1 hi
      obtain ⟨c', hc'⟩ : ∃ c', (q.step e.watched policy i).calls[i]? = some c' := by
        refine ⟨_, List.getElem?_eq_getElem ?_⟩
        unfold step
        split
        · exact h
        · simpa using h
      rw [hcons] at hsub
      exact ih (watched_sound e policy hq i) hc' ((watched_turn e policy hq i).hasBegun hc')
        (sublist_of_replicate hj hsub)
    · obtain rfl | hothers := hwriter
      · rw [hcons] at hsub
        exact ih (watched_sound e policy hq k) ((getElem?_step_ne hk).trans hi) hc (by simpa using hsub)
      · -- another call writes, so `i` is not running the checks, and it will not write again
        have hrun := hothers i c hk hi
        refine not_mem_writers hq (fun c' hc' => ?_) (k :: order) hi_mem
        cases hi.symm.trans hc'
        cases c with
        | fresh => exact nomatch hc
        | running ms rest => exact nomatch hrun
        | ended outcome => rfl

/-- **The writes of two calls do not interleave.** -/
theorem writes_apart (hq : q.WatchedSound) {i j : Nat} (hij : i ≠ j) (order : List Nat) :
    ¬ [i, j, i].Sublist (writers (ledger e policy order q)) := by
  induction order generalizing q with
  | nil => simp [ledger, writers]
  | cons k order ih =>
    intro hsub
    obtain ⟨n, hcons, -⟩ := writers_cons e policy hq k order
    rw [hcons] at hsub
    by_cases hk : i = k
    · -- whether `i` writes at this turn or not, `j` would have to write before `i` does so again
      subst hk
      have hlater : [j, i].Sublist (writers (ledger e policy order (q.step e.watched policy i))) :=
        sublist_of_replicate hij.symm ((List.sublist_cons_self i [j, i]).trans hsub)
      cases hi : (q.step e.watched policy i).calls[i]? with
      | none =>
        refine not_mem_writers (watched_sound e policy hq i) (fun c hc => ?_) order
          (hlater.subset (List.mem_cons_of_mem j List.mem_cons_self))
        exact absurd (hi.symm.trans hc) (by simp)
      | some c =>
        exact not_sublist_writers (watched_sound e policy hq i) hij.symm hi
          ((watched_turn e policy hq i).hasBegun hi) order hlater
    · exact ih (watched_sound e policy hq k) (sublist_of_replicate hk hsub)

theorem map_ledger (hq : q.WatchedSound) (order : List Nat) :
    q.shared.world.asked ++ (ledger e policy order q).map Prod.snd =
      (q.steps e.watched policy order).shared.world.asked := by
  induction order generalizing q with
  | nil => exact List.append_nil _
  | cons i order ih =>
    obtain ⟨new, hnew, -⟩ := (watched_turn e policy hq i).asked hq
    rw [steps_cons, ← ih (watched_sound e policy hq i), hnew]
    simp [ledger, hnew, Function.comp_def]

end Ledger

section Totals

/-! ### What the counters show -/

/-- The counter grew by as much as it was asked to. -/
def Balances (c : Counter) (total : σ → Nat) (w w' : Watched σ) : Prop :=
  total w'.now + w.asked.count (.note (.count c)) =
    total w.now + w'.asked.count (.note (.count c))

/-- Every note of a counter moves it, and nothing else does. -/
theorem makes_balances {c : Counter} {total : σ → Nat} (h : e.Records c total) (r : Request)
    (w : Watched σ) : (e.watched.answer r).Makes (Balances c total) w := by
  by_cases hr : ∀ n, r ≠ .note n
  · -- no note: the counter stays, and so does the number of its notes
    refine (Surroundings.makes_answer (h.answers r hr) w).mono (fun _ _ h => h) ?_ fun _ _ h => h
    rintro w w' ⟨hnow, hasked⟩
    have htotal : total w'.now = total w.now := hnow.elim (congrArg total) id
    have hcount : w'.asked.count (.note (.count c)) = w.asked.count (.note (.count c)) := by
      obtain hsame | hmore := hasked
      · rw [hsame]
      · rw [hmore, List.count_append, List.count_singleton]
        simp [hr]
    rw [Balances, htotal, hcount]
  · obtain ⟨n, rfl⟩ : ∃ n, r = .note n := by simpa using hr
    refine ⟨?_, trivial⟩
    -- a note: it moves the counter if it is one of it
    by_cases hn : n = .count c
    · subst hn
      simp [Balances, Surroundings.watched, h.counts]
      omega
    · simp [Balances, Surroundings.watched, h.others n _ hn, hn]

/-- **A counter grows by the notes of it that the calls ask for.** -/
theorem total_steps {c : Counter} {total : σ → Nat} (h : e.Records c total) (n : Nat) (w : σ)
    (order : List Nat) :
    let w' := ((ofFresh n ⟨false, ⟨w, []⟩⟩).steps e.watched policy order).shared.world
    total w'.now = total w + w'.asked.count (.note (.count c)) := by
  have hadmits : e.watched.Admits (fun _ => True) (fun _ _ => True) (Balances c total) :=
    ⟨fun _ => trivial, fun _ _ _ _ _ => trivial, fun _ _ => trivial, fun _ _ _ _ => trivial,
      fun _ _ _ _ => trivial⟩
  have hrest : ∀ w, True →
      ((Cycle.rest e.watched.home policy).within e.watched).Makes (Balances c total) w :=
    fun w _ => Program.makes_within (makes_balances h) _ w
  have hsteps := world_steps hadmits (fun n w => (makes_balances h (.note n) w).1) hrest order
    (sound_ofFresh n (s := ⟨w, []⟩) trivial)
  generalize ((ofFresh n _).steps e.watched policy order).shared.world = w' at hsteps
  induction hsteps with
  | refl => simp [ofFresh]
  | tail _ hstep ih =>
    unfold Balances at hstep
    omega

end Totals

/-- A call that finds the flag up passes over, and asks for two notes and nothing else. -/
theorem step_passes {i : Nat} (hq : q.Shadows p) (hi : p.calls[i]? = some .fresh)
    (hbusy : p.shared.busy = true) :
    p.step e policy i = ⟨⟨true, Cycle.passed e p.shared.world⟩, p.calls.set i (.ended .skipped)⟩ ∧
      (q.step e.watched policy i).shared.world.asked =
        q.shared.world.asked ++ Cycle.passNotes e.home := by
  refine ⟨step_passOver hi hbusy, ?_⟩
  have hfresh : q.calls[i]? = some .fresh := by
    have hcall := hq.calls i
    rw [hi] at hcall
    generalize q.calls[i]? = c? at hcall ⊢
    cases hcall with
    | some hc => cases hc; rfl
  have hflag : q.shared.busy = true := by rw [← hbusy, hq.shared]; rfl
  rw [step_passOver hfresh hflag]
  exact asked_passed _

/-- A call that has ended has run or was passed over. -/
theorem countP_hasRun_add {calls : List (Call σ)} (h : ∀ c ∈ calls, c.outcome?.isSome) :
    calls.countP Call.hasRun + calls.countP Call.isSkipped = calls.length := by
  induction calls with
  | nil => rfl
  | cons c calls ih =>
    have hrest := ih fun c hc => h c (List.mem_cons_of_mem _ hc)
    cases c with
    | fresh => cases h _ List.mem_cons_self
    | running ms rest => cases h _ List.mem_cons_self
    | ended outcome =>
      by_cases ho : outcome = .skipped <;> simp [ho] <;> omega

/-- However calls are interleaved in whatever surroundings, the flag is sound. -/
theorem sound_ofFresh_steps (e : Surroundings σ) (policy : DemotionPolicy) (n : Nat) (s : σ)
    (order : List Nat) :
    ((ofFresh n ⟨false, s⟩).steps e policy order).Sound (fun _ => True) (fun _ _ => True)
      (fun _ _ => True) (fun _ _ => True) :=
  sound_steps ⟨fun _ => trivial, fun _ _ _ _ _ => trivial, fun _ _ => trivial,
    fun _ _ _ _ => trivial, fun _ _ _ _ => trivial⟩
    (fun s _ => Process.makes_anything _ s) order (sound_ofFresh n trivial)

/-- Once all calls have ended, each was counted once, as a cycle or as one that was passed over. -/
theorem counted_of_ended {p : Pool σ} (hshadows : q.Shadows p) (hcounted : q.Counted)
    (hended : ∀ c ∈ p.calls, c.outcome?.isSome) :
    q.shared.world.asked.count (.note (.count .cycles)) +
        q.shared.world.asked.count (.note (.count .skippedCycles)) = p.calls.length ∧
      q.shared.world.asked.count (.note (.count .skippedCycles)) =
        p.calls.countP Call.isSkipped := by
  have hran : q.calls.countP Call.hasRun = p.calls.countP Call.hasRun :=
    hshadows.countP_eq fun h => by cases h <;> rfl
  have hskipped : q.calls.countP Call.isSkipped = p.calls.countP Call.isSkipped :=
    hshadows.countP_eq fun h => by cases h <;> rfl
  rw [hcounted.cycles, hcounted.skipped, hran, hskipped]
  exact ⟨countP_hasRun_add hended, rfl⟩

/-- **Mutual exclusion of cycles**, for any number of calls in any order of their turns. -/
theorem exclusion (e : Surroundings σ) (policy : DemotionPolicy) (n : Nat) (w : σ)
    (order : List Nat) :
    let p := (ofFresh n ⟨false, w⟩).steps e policy order
    let q := (ofFresh n ⟨false, ⟨w, []⟩⟩).steps e.watched policy order
    let asked := q.shared.world.asked
    let entries := ledger e policy order (ofFresh n ⟨false, ⟨w, []⟩⟩)
    -- watching changes nothing, and every request is attributed to the call whose turn it was
    (q.Shadows p ∧ entries.map Prod.snd = asked) ∧
    -- at most one call is running the checks, and the flag tells whether one is
    p.calls.countP Call.isRunning = p.shared.busy.toNat ∧
    -- a call that begins meanwhile passes over, and asks for two notes and nothing else
    (∀ i, p.calls[i]? = some .fresh → p.shared.busy = true →
      p.step e policy i =
          ⟨⟨true, Cycle.passed e p.shared.world⟩, p.calls.set i (.ended .skipped)⟩ ∧
        (q.step e.watched policy i).shared.world.asked = asked ++ Cycle.passNotes e.home ∧
        (Report.cycleSkipped e.home).line =
          ⟨.warn, .cycle, "Previous cluster health check still running, skipping",
            [("local", .text e.home)]⟩) ∧
    -- the writes of two calls do not interleave
    (∀ i j, i ≠ j → ¬ [i, j, i].Sublist (writers entries)) ∧
    -- in the end the flag is down, and every call was counted once
    ((∀ c ∈ p.calls, c.outcome?.isSome) →
      p.shared.busy = false ∧
        asked.count (.note (.count .cycles)) + asked.count (.note (.count .skippedCycles)) = n ∧
        asked.count (.note (.count .skippedCycles)) = p.calls.countP Call.isSkipped ∧
        ∀ cycles skipped : σ → Nat,
          e.Records .cycles cycles → e.Records .skippedCycles skipped →
            cycles p.shared.world + skipped p.shared.world = cycles w + skipped w + n ∧
              skipped p.shared.world = skipped w + p.calls.countP Call.isSkipped) := by
  intro p q asked entries
  have hstart : (ofFresh n ⟨false, ⟨w, []⟩⟩ : Pool (Watched σ)).WatchedSound :=
    sound_ofFresh n trivial
  have hshadows : q.Shadows p := shadows_steps (shadows_ofFresh n ⟨false, ⟨w, []⟩⟩) order
  have hsound := sound_ofFresh_steps e policy n w order
  refine ⟨⟨hshadows, map_ledger hstart order⟩, hsound.flag, fun i hi hup => ?_,
    fun i j hij => writes_apart hstart hij order, fun hended => ?_⟩
  · obtain ⟨hstep, hnotes⟩ := step_passes hshadows hi hup
    exact ⟨hstep, hnotes, rfl⟩
  · have hcounted : q.Counted := counted_steps hstart (counted_ofFresh n w) order
    have hlength : p.calls.length = n := (length_steps _ order).trans List.length_replicate
    have hall : asked.count (.note (.count .cycles)) + asked.count (.note (.count .skippedCycles)) =
        n := (counted_of_ended hshadows hcounted hended).1.trans hlength
    have hskipped : asked.count (.note (.count .skippedCycles)) = p.calls.countP Call.isSkipped :=
      (counted_of_ended hshadows hcounted hended).2
    refine ⟨hsound.idle_of_ended hended, hall, hskipped, fun cycles skipped hcycles hskips => ?_⟩
    have htotal : ∀ {c : Counter} {total : σ → Nat}, e.Records c total →
        total p.shared.world = total w + asked.count (.note (.count c)) := by
      intro c total h
      rw [hshadows.shared]
      exact total_steps h n w order
    rw [htotal hcycles, htotal hskips]
    omega

/-- A node on which an install takes five milliseconds. -/
def slowInstall : Surroundings (World Unit) :=
  World.surroundings "n1" (fun _ => .pause 5 (.done (.ok true)))
    fun _ peers _ => .done (.ok (Table.ofList (peers.map fun peer => (peer, ⟨peer, "Orders", 1⟩))))

/-- A world in which a copy has to be installed. -/
def staleCopy : World Unit where
  directory := {
    home := "n1"
    members := .ofList [("n1", .online), ("n2", .online)]
    hosted := ["Orders"]
    entries := .ofList [(⟨"n1", "Orders"⟩, .offline), (⟨"n2", "Orders"⟩, .online)] }
  own := ()

theorem slowInstall_records (c : Counter) :
    slowInstall.Records c fun w => w.journal.tally.count c where
  counts w := by simp [slowInstall, World.surroundings, World.note, Journal.note, Journal.count]
  others n w hn := by
    cases n with
    | report r => rfl
    | count c' =>
      have hc : c' ≠ c := fun h => hn (h ▸ rfl)
      simp [slowInstall, World.surroundings, World.note, Journal.note, Journal.count, hc]
  answers r hr w := by
    cases r with
    | homeStatus => exact ⟨rfl, trivial⟩
    | databases => exact ⟨rfl, trivial⟩
    | status key => exact ⟨rfl, trivial⟩
    | setStatus key s =>
      refine ⟨?_, trivial⟩
      simp only [slowInstall, World.surroundings, World.view, World.setStatus]
      split <;> rfl
    | onlineNodes database => exact ⟨rfl, trivial⟩
    | install source => exact fun _ _ => trivial
    | heartbeat database peers timeoutMs => trivial
    | note n => exact absurd rfl (hr n)

/-- A call that begins while a copy is being installed passes over, and both calls are counted. -/
theorem exclusion_slowInstall :
    let p := (ofFresh 2 ⟨false, staleCopy⟩).steps slowInstall ⟨true, 200⟩ [0]
    let p' := (ofFresh 2 ⟨false, staleCopy⟩).steps slowInstall ⟨true, 200⟩ [0, 1, 0]
    (p.calls[1]? = some .fresh ∧ p.shared.busy = true ∧
      p.step slowInstall ⟨true, 200⟩ 1 =
        ⟨⟨true, Cycle.passed slowInstall p.shared.world⟩, p.calls.set 1 (.ended .skipped)⟩) ∧
    ¬ [0, 1, 0].Sublist (writers (ledger slowInstall ⟨true, 200⟩ [0, 1, 0]
      (ofFresh 2 ⟨false, ⟨staleCopy, []⟩⟩))) ∧
    (∀ c ∈ p'.calls, c.outcome?.isSome) ∧ p'.shared.busy = false ∧
      p'.shared.world.journal.tally.count .cycles +
        p'.shared.world.journal.tally.count .skippedCycles = 2 := by
  intro p p'
  obtain ⟨-, -, hpasses, -, -⟩ := exclusion slowInstall ⟨true, 200⟩ 2 staleCopy [0]
  obtain ⟨-, -, -, hapart, hend⟩ := exclusion slowInstall ⟨true, 200⟩ 2 staleCopy [0, 1, 0]
  have hfresh : p.calls[1]? = some .fresh := rfl
  have hbusy : p.shared.busy = true := rfl
  have hended : ∀ c ∈ p'.calls, c.outcome?.isSome := by
    have hcalls : p'.calls = [.ended .completed, .ended .skipped] := rfl
    simp [hcalls, Call.outcome?]
  obtain ⟨hidle, -, -, htotals⟩ := hend hended
  exact ⟨⟨hfresh, hbusy, (hpasses 1 hfresh hbusy).1⟩, hapart 0 1 (by decide), hended, hidle,
    (htotals _ _ (slowInstall_records .cycles) (slowInstall_records .skippedCycles)).1⟩

end Pool

end Upkeep
