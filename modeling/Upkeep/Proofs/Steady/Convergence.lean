import Upkeep.Proofs.Cycle.Alone
import Upkeep.Proofs.Steady.Checks
import Upkeep.Proofs.Steady.Settling

/-!
# Convergence in one cycle

In steady surroundings a cycle is a function of the directory, and the second one finds nothing to
change.

* `Cycle.steady_cycle` : what one cycle does.
* `Cycle.convergence` : **after any number of cycles the directory is as after the first.**  The
  later ones write nothing; they ask again for the installs that failed, and put on record again the
  demotions that are suppressed and the checks that fail.
-/

namespace Upkeep

namespace Cycle

variable {σ : Type} {e : Surroundings σ} {dir : σ → Directory} {I : σ → Prop} {c : Climate}

/-- **One cycle in steady surroundings** is a function of the directory. -/
theorem steady_cycle (he : e.Steady dir I c) (policy : DemotionPolicy) {s : σ} (hs : I s)
    (hopen : (dir s).closed = false) :
    let b := c.cycle policy e.home (dir s)
    ((body e.home policy).outcome e s).1 = c.outcome policy e.home (dir s) ∧
      dir ((body e.home policy).outcome e s).2 = b.directory ∧
      marks ((body e.home policy).trace e s) = b.marks ∧
      I ((body e.home policy).outcome e s).2 := by
  intro b
  have hbody := steady_body (c := c) (b := ⟨dir s, []⟩) policy e.home hopen
  obtain ⟨⟨houtcome, hscene⟩, hI⟩ := hbody.steady he hs
  obtain ⟨hdirectory, hmarks⟩ := Scene.mk.inj hscene
  exact ⟨houtcome, hdirectory, hmarks, hI⟩

/-- **Any number of cycles** leave the directory as the first one does. -/
theorem steady_cycles (he : e.Steady dir I c) (policy : DemotionPolicy) {s : σ} (hs : I s)
    (hopen : (dir s).closed = false) (n : Nat) :
    let w := (Pool.callInTurn e policy (n + 1) ⟨false, s⟩).world
    I w ∧ dir w = (c.cycle policy e.home (dir s)).directory := by
  induction n with
  | zero =>
    obtain ⟨-, hdirectory, -, hI⟩ := steady_cycle he policy hs hopen
    rw [Pool.world_callInTurn_succ]
    exact ⟨hI, hdirectory⟩
  | succ n ih =>
    obtain ⟨hI, hdirectory⟩ := ih
    have hopen' : (dir (Pool.callInTurn e policy (n + 1) ⟨false, s⟩).world).closed = false := by
      rw [hdirectory]
      exact (Climate.sameFrame_cycle (dir s)).closed.trans hopen
    obtain ⟨-, hdirectory', -, hI'⟩ := steady_cycle he policy hI hopen'
    rw [Pool.world_callInTurn_succ]
    refine ⟨hI', ?_⟩
    rw [hdirectory', hdirectory, Climate.cycle_again]

/-- **Convergence in one cycle.**  The surroundings keep to a climate and leave the directory alone;
calls are made one after another on a directory that is open. -/
theorem convergence (he : e.Steady dir I c) (policy : DemotionPolicy) {s : σ} (hs : I s)
    (hopen : (dir s).closed = false) (n : Nat) :
    let world n := (Pool.callInTurn e policy n ⟨false, s⟩).world
    let trace n := (body e.home policy).trace e (world n)
    -- no call passes over
    Pool.callInTurn e policy n ⟨false, s⟩ = ⟨false, world n⟩ ∧
      -- the directory is as after the first cycle, its count of writes included
      dir (world (n + 1)) = dir (world 1) ∧
      -- no later cycle writes a status
      (∀ x ∈ trace (n + 1), ∀ key status, x.request ≠ .setStatus key status) ∧
      -- of what the first cycle did, a later one repeats the installs that failed, the reports of
      -- suppressed demotions and the failures of checks, in their order, and does nothing else
      marks (trace (n + 1)) = (marks (trace 0)).filter c.persists ∧
      -- no hosted database is installed twice in a cycle
      ((marks (trace n)).filterMap Request.installed?).Sublist (dir s).hosted := by
  intro world trace
  have hcycles := steady_cycles he policy hs hopen
  have hopen₁ : ∀ n, (dir (world (n + 1))).closed = false := fun n => by
    rw [(hcycles n).2]
    exact (Climate.sameFrame_cycle (dir s)).closed.trans hopen
  have hfirst : marks (trace 0) = (c.cycle policy e.home (dir s)).marks :=
    (steady_cycle he policy hs hopen).2.2.1
  have hlater : ∀ n, marks (trace (n + 1)) = (marks (trace 0)).filter c.persists := by
    intro n
    obtain ⟨-, -, hmarks, -⟩ := steady_cycle he policy (hcycles n).1 (hopen₁ n)
    rw [hfirst, hmarks, (hcycles n).2, Climate.cycle_again]
  have hinstalled : ((marks (trace 0)).filterMap Request.installed?).Sublist (dir s).hosted := by
    rw [hfirst]
    exact Climate.installed_cycle (dir s)
  refine ⟨Pool.callInTurn_eq e policy n s, (hcycles n).2.trans (hcycles 0).2.symm, ?_, hlater n, ?_⟩
  · intro x hx key status hwrite
    have hmem : x.request ∈ marks (trace (n + 1)) := by
      refine List.mem_filter.2 ⟨List.mem_map_of_mem hx, ?_⟩
      rw [hwrite]
      rfl
    rw [hlater n, hwrite] at hmem
    exact absurd (List.mem_filter.1 hmem).2 Bool.false_ne_true
  · cases n with
    | zero => exact hinstalled
    | succ n =>
      rw [hlater n]
      exact (List.filter_sublist.filterMap _).trans hinstalled

/-- Installs from one node crash, only another one answers heartbeats, and those of one database are
lost. -/
def patchy : Climate where
  installs source := if source.node = "n2" then .error (.crash none) else .ok true
  rounds database :=
    if database = "Stock" then .error (.failure (.transport "lost")) else .ok fun node => node = "n3"

/-- A cluster in this climate. -/
def patchyCluster : Surroundings (World Unit) :=
  World.surroundings "n1" (fun source => .done (patchy.installs source))
    fun database peers _ => .done <|
      if database = "Stock" then .error (.failure (.transport "lost"))
      else if "n3" ∈ peers then .ok (Table.empty.put "n3" ⟨"n3", database, 0⟩)
      else .error (.failure (.allUnreachable database))

theorem steady_patchyCluster : patchyCluster.Steady World.directory (fun _ => True) patchy := by
  refine World.steady (J := fun _ => True) (fun source w _ => ⟨rfl, rfl, trivial⟩)
    fun database peers timeoutMs w _ => ⟨?_, rfl, trivial⟩
  simp only [Process.finish, Climate.Round, patchy]
  by_cases hstock : database = "Stock"
  · simp [hstock]
  · by_cases hmem : "n3" ∈ peers
    · simp only [hstock, hmem, if_false, if_true, List.any_eq_true, decide_eq_true_eq,
        exists_eq_right]
      refine ⟨_, rfl, fun peer => ?_⟩
      by_cases hpeer : "n3" = peer
      · simp [Table.contains, ← hpeer, hmem]
      · simp [Table.contains, hpeer, Ne.symm hpeer]
    · simp [hstock, hmem]

/-- A node with a copy that cannot be installed, one that can, one that a silent peer serves as well,
and one whose heartbeats are lost. -/
def patchyWorld : World Unit where
  directory := {
    home := "n1"
    members := .ofList [("n1", .online), ("n2", .online), ("n3", .online)]
    hosted := ["Ledger", "Orders", "Users", "Stock"]
    entries := .ofList [(⟨"n1", "Ledger"⟩, .offline), (⟨"n2", "Ledger"⟩, .online),
      (⟨"n1", "Orders"⟩, .offline), (⟨"n3", "Orders"⟩, .online), (⟨"n1", "Users"⟩, .online),
      (⟨"n2", "Users"⟩, .online), (⟨"n3", "Users"⟩, .online), (⟨"n1", "Stock"⟩, .online),
      (⟨"n2", "Stock"⟩, .online)] }
  own := ()

/-- The first cycle brings up one copy.  The fifth repeats the other install, the report of the
silent peer and the failure of the stall check. -/
theorem convergence_patchyCluster :
    let world n := (Pool.callInTurn patchyCluster ⟨false, 200⟩ n ⟨false, patchyWorld⟩).world
    (world 5).directory = (world 1).directory ∧ (world 1).directory.writes = 1 ∧
      marks ((body "n1" ⟨false, 200⟩).trace patchyCluster (world 4)) =
        [.install ⟨"Ledger", "n2", ["n2"]⟩,
          .note (.report (.demotionSuppressed "n1" "n2" "Users" 200)),
          .note (.count (.checkErrors "server_in_stall"))] := by
  intro world
  obtain ⟨-, hsame, -, -, -⟩ := convergence steady_patchyCluster ⟨false, 200⟩ (s := patchyWorld)
    trivial rfl 4
  obtain ⟨-, -, -, hmarks, -⟩ := convergence steady_patchyCluster ⟨false, 200⟩ (s := patchyWorld)
    trivial rfl 3
  refine ⟨hsame, by decide, hmarks.trans (by decide)⟩

end Cycle

end Upkeep
