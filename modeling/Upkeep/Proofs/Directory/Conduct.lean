import Upkeep.Proofs.Process.Guarantee
import Upkeep.World

/-!
# How a directory is called

`Directory.Responds` says how requests change a directory and what may be answered to them: each
call is answered as the directory answers it, or it fails and nothing happens; and only what `C`
admits happens to the directory while an installer or a transport is at work.

* `Surroundings.Reflects` : the surroundings show a directory and keep to that.
* `Directory.Evolves` : the directory became another one by operations; members and hosted databases
  are never lost on the way.
* `Directory.Reachable.nodup_hosted` : no database is registered twice.
* `World.reflects` : the directory of a world is shown faithfully.
-/

namespace Upkeep

namespace Directory

/-- A request may be answered with `x` and leave the directory `d'`. -/
def Responds (C : Directory → Directory → Prop) (d : Directory) :
    (r : Request) → r.Answer → Directory → Prop
  | .homeStatus, x, d' => d' = d ∧ ∀ a, x = .ok a → d.homeStatus = .ok a
  | .databases, x, d' => d' = d ∧ ∀ a, x = .ok a → d.databases = .ok a
  | .status key, x, d' => d' = d ∧ ∀ a, x = .ok a → d.status key = .ok a
  | .setStatus key s, x, d' => d.setStatus key s = .ok d' ∨ d' = d ∧ x ≠ .ok ()
  | .onlineNodes database, x, d' => d' = d ∧ ∀ a, x = .ok a → d.onlineNodes database = .ok a
  | .install _, _, d' => C d d'
  | .heartbeat _ _ _, _, d' => C d d'
  | .note _, _, d' => d' = d

/-- One directory became another by operations. -/
def Evolves (d d' : Directory) : Prop := ∃ ops, d' = (d.performAll ops).2

variable {d d' d'' : Directory}

theorem whileOpen_eq_ok {α : Type} {a b : α} : d.whileOpen a = .ok b ↔ d.closed = false ∧ a = b := by
  unfold whileOpen
  cases d.closed <;> simp

theorem setStatus_eq_ok {key : CopyKey} {s : CopyStatus} :
    d.setStatus key s = .ok d' ↔
      d.closed = false ∧ { d with entries := d.entries.put key s, writes := d.writes + 1 } = d' :=
  whileOpen_eq_ok

theorem find?_setStatus {key key' : CopyKey} {s : CopyStatus} (h : d.setStatus key s = .ok d') :
    d'.entries.find? key' = if key = key' then some s else d.entries.find? key' := by
  obtain ⟨-, rfl⟩ := setStatus_eq_ok.1 h
  exact Table.find?_put _ _ _ _

theorem same_setStatus {key : CopyKey} {s : CopyStatus} (h : d.setStatus key s = .ok d') :
    d'.home = d.home ∧ d'.members = d.members ∧ d'.hosted = d.hosted := by
  obtain ⟨-, rfl⟩ := setStatus_eq_ok.1 h
  exact ⟨rfl, rfl, rfl⟩

section Evolution

/-! ### What no operation takes away -/

/-- The same node keeps both directories, and no member or hosted database was lost. -/
structure Extends (d d' : Directory) : Prop where
  /-- The same node keeps both. -/
  home : d'.home = d.home
  /-- No member was lost. -/
  members : ∀ node ∈ d.members.keys, node ∈ d'.members.keys
  /-- No hosted database was lost. -/
  hosted : ∀ database ∈ d.hosted, database ∈ d'.hosted

theorem Extends.refl (d : Directory) : Extends d d := ⟨rfl, fun _ h => h, fun _ h => h⟩

theorem Extends.trans (h : Extends d d') (h' : Extends d' d'') : Extends d d'' :=
  ⟨h'.home.trans h.home, fun node hn => h'.members node (h.members node hn),
    fun database hd => h'.hosted database (h.hosted database hd)⟩

theorem Extends.of_setStatus {key : CopyKey} {s : CopyStatus} (h : d.setStatus key s = .ok d') :
    Extends d d' := by
  obtain ⟨hhome, hmembers, hhosted⟩ := same_setStatus h
  exact ⟨hhome, fun _ hn => hmembers ▸ hn, fun _ hd => hhosted ▸ hd⟩

theorem extends_perform (d : Directory) (op : Operation) : Extends d (d.perform op).2 := by
  cases op with
  | enroll node status =>
    refine ⟨rfl, fun other hmem => ?_, fun _ h => h⟩
    simp only [perform, enroll, Table.keys_put]
    split
    · exact hmem
    · exact List.mem_append_left _ hmem
  | host database =>
    refine ⟨?_, ?_, fun other hmem => ?_⟩
    · simp only [perform, host]; split <;> rfl
    · simp only [perform, host]; split <;> exact fun _ h => h
    · simp only [perform, host]
      split
      · exact hmem
      · exact List.mem_append_left _ hmem
  | setStatus key s =>
    simp only [perform]
    split
    · rename_i h
      exact .of_setStatus h
    · exact .refl d
  | forget | close | writes | homeName | homeStatus | databases | status | onlineNodes
  | onlinePeers | snapshot => exact ⟨rfl, fun _ h => h, fun _ h => h⟩

theorem Evolves.to_extends (h : Evolves d d') : Extends d d' := by
  obtain ⟨ops, rfl⟩ := h
  induction ops generalizing d with
  | nil => exact .refl d
  | cons op ops ih => exact (extends_perform d op).trans ih

theorem performAll_append (d : Directory) (ops ops' : List Operation) :
    (d.performAll (ops ++ ops')).2 = ((d.performAll ops).2.performAll ops').2 := by
  induction ops generalizing d with
  | nil => rfl
  | cons op ops ih => exact ih (d.perform op).2

theorem Evolves.refl (d : Directory) : Evolves d d := ⟨[], rfl⟩

theorem Evolves.trans (h : Evolves d d') (h' : Evolves d' d'') : Evolves d d'' := by
  obtain ⟨ops, rfl⟩ := h
  obtain ⟨ops', rfl⟩ := h'
  exact ⟨ops ++ ops', (performAll_append d ops ops').symm⟩

end Evolution

section Reachability

/-! ### What comes of a fresh directory -/

variable {home : Node}

/-- The directory became what it is by operations on a fresh one of this node. -/
def Reachable (home : Node) (d : Directory) : Prop :=
  ∃ standing, Evolves (create home standing) d

theorem Reachable.home_eq (h : Reachable home d) : d.home = home := by
  obtain ⟨standing, hevolves⟩ := h
  exact hevolves.to_extends.home

theorem nodup_hosted_perform (h : d.hosted.Nodup) (op : Operation) :
    (d.perform op).2.hosted.Nodup := by
  cases op with
  | host database =>
    simp only [perform, host]
    split
    · exact h
    · rename_i hnew
      refine List.nodup_append.2 ⟨h, by simp, fun a ha b hb => ?_⟩
      obtain rfl := List.mem_singleton.1 hb
      rintro rfl
      exact hnew ha
  | setStatus key s =>
    simp only [perform]
    split
    · rename_i hset
      rwa [(same_setStatus hset).2.2]
    · exact h
  | enroll | forget | close | writes | homeName | homeStatus | databases | status | onlineNodes
  | onlinePeers | snapshot => exact h

/-- No database is registered twice. -/
theorem Reachable.nodup_hosted (h : Reachable home d) : d.hosted.Nodup := by
  obtain ⟨standing, ops, rfl⟩ := h
  have hfresh : (create home standing).hosted.Nodup := List.nodup_nil
  generalize create home standing = d₀ at hfresh
  induction ops generalizing d₀ with
  | nil => exact hfresh
  | cons op ops ih => exact ih (d₀.perform op).2 (nodup_hosted_perform hfresh op)

theorem Reachable.evolves (h : Reachable home d) (h' : Evolves d d') : Reachable home d' := by
  obtain ⟨standing, hevolves⟩ := h
  exact ⟨standing, hevolves.trans h'⟩

end Reachability

end Directory

/-- The surroundings show a directory: every call is answered as the directory answers it, or it
fails and nothing happens; and the installer and the transport change it as `C` admits. -/
structure Surroundings.Reflects {σ : Type} (e : Surroundings σ) (dir : σ → Directory)
    (C : Directory → Directory → Prop) : Prop where
  /-- The standing of the home node is asked for. -/
  homeStatus : ∀ s, (dir s).Responds C .homeStatus (e.directory.homeStatus s).1
    (dir (e.directory.homeStatus s).2)
  /-- The hosted databases are asked for. -/
  databases : ∀ s, (dir s).Responds C .databases (e.directory.databases s).1
    (dir (e.directory.databases s).2)
  /-- The status of a copy is asked for. -/
  status : ∀ key s, (dir s).Responds C (.status key) (e.directory.status key s).1
    (dir (e.directory.status key s).2)
  /-- A copy is given a status. -/
  setStatus : ∀ key status s, (dir s).Responds C (.setStatus key status)
    (e.directory.setStatus key status s).1 (dir (e.directory.setStatus key status s).2)
  /-- The nodes that serve a database are asked for. -/
  onlineNodes : ∀ database s, (dir s).Responds C (.onlineNodes database)
    (e.directory.onlineNodes database s).1 (dir (e.directory.onlineNodes database s).2)
  /-- An entry on record does not touch the directory. -/
  note : ∀ n s, dir (e.note n s) = dir s
  /-- What an install does to the directory. -/
  installer : ∀ source s, (e.installer source).Makes (fun s s' => C (dir s) (dir s')) s
  /-- What a heartbeat does to the directory. -/
  transport : ∀ database peers timeoutMs s,
    (e.transport database peers timeoutMs).Makes (fun s s' => C (dir s) (dir s')) s

/-- **A world shows its directory**, if its installer and its transport keep to `C`. -/
theorem World.reflects {ρ : Type} {home : Node} {installer : Installer (World ρ)}
    {transport : Transport (World ρ)} {C : Directory → Directory → Prop}
    (hinstaller : ∀ source w,
      (installer source).Makes (fun w w' => C w.directory w'.directory) w)
    (htransport : ∀ database peers timeoutMs w,
      (transport database peers timeoutMs).Makes (fun w w' => C w.directory w'.directory) w) :
    (surroundings home installer transport).Reflects World.directory C := by
  have hread : ∀ {α : Type} (question : Directory → Except ClusterFailure α) (w : World ρ) (a : α),
      (read question w).1 = .ok a → question w.directory = .ok a := by
    intro α question w a h
    simp only [read] at h
    cases hq : question w.directory with
    | ok b =>
      rw [hq] at h
      exact congrArg Except.ok (Except.ok.inj h)
    | error e =>
      rw [hq] at h
      exact nomatch h
  refine ⟨fun w => ⟨rfl, hread _ w⟩, fun w => ⟨rfl, hread _ w⟩, fun key w => ⟨rfl, hread _ w⟩,
    fun key status w => ?_, fun database w => ⟨rfl, hread _ w⟩, fun _ _ => rfl, hinstaller,
    htransport⟩
  simp only [surroundings, view, setStatus, Directory.Responds]
  cases h : w.directory.setStatus key status with
  | ok d => exact .inl rfl
  | error e => exact .inr ⟨rfl, nofun⟩

end Upkeep
