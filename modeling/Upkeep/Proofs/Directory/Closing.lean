import Upkeep.Proofs.Cycle.Failing
import Upkeep.Proofs.Directory.Conduct

/-!
# A directory that is shut

Once a directory is shut it stays so, and nothing is written to it any more: whatever is done to it,
an entry is as it was or was dropped (`Directory.Unwritten`).

* `Directory.Evolves.unwritten` : no sequence of operations does more.
* `Surroundings.Closable` : the surroundings give every call of the directory the answer of the
  directory itself, and it may be shut at any instant.
* `Surroundings.Closable.makes_unwritten` : nothing that is asked of such surroundings writes to a
  directory that is shut.
-/

namespace Upkeep

namespace Directory

variable {d d' d'' : Directory}

/-- The directory is shut, and since it was `d` nothing was written to it. -/
structure Unwritten (d d' : Directory) : Prop where
  /-- It is shut. -/
  closed : d'.closed = true
  /-- Nothing was written. -/
  writes : d'.writes = d.writes
  /-- An entry is as it was or was dropped. -/
  entries : ∀ key, d'.entries.find? key = d.entries.find? key ∨ d'.entries.find? key = none

theorem Unwritten.refl (h : d.closed = true) : Unwritten d d := ⟨h, rfl, fun _ => .inl rfl⟩

theorem Unwritten.trans (h : Unwritten d d') (h' : Unwritten d' d'') : Unwritten d d'' := by
  refine ⟨h'.closed, h'.writes.trans h.writes, fun key => ?_⟩
  obtain hsame | hnone := h'.entries key
  · rw [hsame]
    exact h.entries key
  · exact .inr hnone

theorem unwritten_perform (h : d.closed = true) (op : Operation) :
    Unwritten d (d.perform op).2 := by
  cases hop : op.isFallible with
  | true =>
    rw [perform_closed h hop]
    exact .refl h
  | false =>
    cases op with
    | host database =>
      simp only [perform, host]
      split
      · exact .refl h
      · exact ⟨h, rfl, fun _ => .inl rfl⟩
    | forget key =>
      refine ⟨h, rfl, fun key' => ?_⟩
      simp only [perform, forget, Table.find?_erase]
      split
      · exact .inr rfl
      · exact .inl rfl
    | close => exact ⟨rfl, rfl, fun _ => .inl rfl⟩
    | enroll | writes | homeName => exact ⟨h, rfl, fun _ => .inl rfl⟩
    | setStatus | homeStatus | databases | status | onlineNodes | onlinePeers | snapshot =>
      cases hop

/-- **Nothing is written to a directory that is shut**, whatever is done to it. -/
theorem Evolves.unwritten (h : Evolves d d') (hclosed : d.closed = true) : Unwritten d d' := by
  obtain ⟨ops, rfl⟩ := h
  induction ops generalizing d with
  | nil => exact .refl hclosed
  | cons op ops ih =>
    have hstep := unwritten_perform hclosed op
    exact hstep.trans (ih hstep.closed)

/-- The directory is as it was, or was just shut. -/
def Fades (d d' : Directory) : Prop := d' = d ∨ d' = d.close

theorem Fades.evolves (h : Fades d d') : Evolves d d' := by
  obtain rfl | rfl := h
  · exact .refl _
  · exact ⟨[.close], rfl⟩

/-- What the directory itself answers to a call, and what becomes of it then.  Anything may be
answered to the other requests, and operations be done meanwhile. -/
def Replies (d : Directory) : (r : Request) → r.Answer → Directory → Prop
  | .homeStatus, x, d' => x = d.homeStatus.mapError .failure ∧ d' = d
  | .databases, x, d' => x = d.databases.mapError .failure ∧ d' = d
  | .status key, x, d' => x = (d.status key).mapError .failure ∧ d' = d
  | .setStatus key s, x, d' =>
    (d.setStatus key s = .ok d' ∧ x = .ok ()) ∨
      ∃ e, d.setStatus key s = .error e ∧ x = .error (.failure e) ∧ d' = d
  | .onlineNodes database, x, d' => x = (d.onlineNodes database).mapError .failure ∧ d' = d
  | .install _, _, d' | .heartbeat _ _ _, _, d' | .note _, _, d' => Evolves d d'

variable {r : Request} {x : r.Answer}

theorem Replies.evolves (h : d.Replies r x d') : Evolves d d' := by
  cases r with
  | homeStatus | databases | status | onlineNodes =>
    obtain ⟨-, rfl⟩ := h
    exact .refl _
  | setStatus key s =>
    obtain ⟨hset, -⟩ | ⟨e, -, -, rfl⟩ := h
    · exact ⟨[.setStatus key s], by simp [performAll, perform, hset]⟩
    · exact .refl _
  | install | heartbeat | note => exact h

/-- The reply of a call that only reads fails exactly if the directory is shut. -/
theorem abort?_read {α : Type} (d : Directory) (a : α) :
    Reply.abort? ((d.whileOpen a).mapError .failure) =
      if d.closed then some (.failure .transportClosed) else none := by
  unfold whileOpen
  split <;> rfl

/-- **A call fails exactly if the directory is shut**, and says so. -/
theorem Replies.abort? (h : d.Replies r x d') (hcall : r.isDirectoryCall = true) :
    Told.abort? ⟨r, x⟩ = if d.closed then some (.failure .transportClosed) else none := by
  cases r with
  | homeStatus | databases | status | onlineNodes =>
    obtain ⟨rfl, -⟩ := h
    exact abort?_read d _
  | setStatus key s =>
    obtain ⟨hset, rfl⟩ | ⟨e, hset, rfl, -⟩ := h
    · rw [if_neg (by simp [(setStatus_eq_ok.1 hset).1])]
      rfl
    · cases hclosed : d.closed with
      | true =>
        obtain rfl : e = .transportClosed := by
          simpa [setStatus, whileOpen, hclosed] using hset.symm
        rfl
      | false => simp [setStatus, whileOpen, hclosed] at hset
  | install | heartbeat | note => cases hcall

end Directory

open Directory (Fades Evolves Unwritten)

variable {σ : Type}

/-- Every call of the directory is answered by the directory itself, which may be shut at any instant
and which others may change by operations while an installer or a transport is at work. -/
structure Surroundings.Closable (e : Surroundings σ) (dir : σ → Directory) : Prop where
  /-- A call is answered, and the directory may be shut just before or just after. -/
  calls : ∀ r s, r.isDirectoryCall = true → ∃ d d', Fades (dir s) d ∧
    d.Replies r (e.exchange r s).answer d' ∧ Fades d' (dir (e.exchange r s).after)
  /-- The directory may be shut while something is put on record. -/
  note : ∀ n s, Fades (dir s) (dir (e.note n s))
  /-- Operations may be done during an install. -/
  installer : ∀ source s, (e.installer source).Makes (fun s s' => Evolves (dir s) (dir s')) s
  /-- Operations may be done during a heartbeat. -/
  transport : ∀ database peers timeoutMs s, (e.transport database peers timeoutMs).Makes
    (fun s s' => Evolves (dir s) (dir s')) s

/-- Nothing is written to the directory if it is shut, and it stays shut. -/
def Surroundings.StaysShut (dir : σ → Directory) (s s' : σ) : Prop :=
  (dir s).closed = true → Unwritten (dir s) (dir s')

namespace Surroundings

variable {e : Surroundings σ} {dir : σ → Directory}

/-- The answer to a call of the directory is there in one step. -/
theorem makes_call {G : σ → σ → Prop} {r : Request} {s : σ} (hcall : r.isDirectoryCall = true)
    (h : G s (e.exchange r s).after) : (e.answer r).Makes G s := by
  cases r with
  | homeStatus | databases | status | setStatus | onlineNodes => exact ⟨h, trivial⟩
  | install | heartbeat | note => cases hcall

/-- **Whatever is asked for changes the directory by operations.** -/
theorem Closable.makes_evolves (he : e.Closable dir) (r : Request) (s : σ) :
    (e.answer r).Makes (fun s s' => Evolves (dir s) (dir s')) s := by
  by_cases hcall : r.isDirectoryCall = true
  · obtain ⟨d, d', hbefore, hreplies, hafter⟩ := he.calls r s hcall
    exact makes_call hcall ((hbefore.evolves.trans hreplies.evolves).trans hafter.evolves)
  · cases r with
    | install source => exact he.installer source s
    | heartbeat database peers timeoutMs => exact he.transport database peers timeoutMs s
    | note n => exact ⟨(he.note n s).evolves, trivial⟩
    | homeStatus | databases | status | setStatus | onlineNodes => exact absurd rfl hcall

/-- **Nothing that is asked for writes to a directory that is shut.** -/
theorem Closable.makes_unwritten (he : e.Closable dir) (r : Request) (s : σ) :
    (e.answer r).Makes (StaysShut dir) s :=
  (he.makes_evolves r s).mono (fun _ _ h => h) (fun _ _ h => h.unwritten) fun _ _ h => h

theorem StaysShut.trans {s s' s'' : σ} (h : StaysShut dir s s') (h' : StaysShut dir s' s'') :
    StaysShut dir s s'' := fun hclosed => (h hclosed).trans (h' (h hclosed).closed)

theorem staysShut_of_steps {s s' : σ} (h : Relation.ReflTransGen (StaysShut dir) s s') :
    StaysShut dir s s' := by
  induction h with
  | refl => exact fun hclosed => .refl hclosed
  | tail _ hstep ih => exact ih.trans hstep

/-- A directory that is shut before an exchange is shut after it, and nothing was written. -/
theorem Closable.exchange_shut (he : e.Closable dir) (r : Request) (s : σ) :
    StaysShut dir s (e.exchange r s).after :=
  staysShut_of_steps (Process.Ensures.finish (he.makes_unwritten r s) (fun _ => trivial) 0).1

/-- **A call of the directory fails only if the directory is shut, and then it says so.** -/
theorem Closable.abort?_call (he : e.Closable dir) {r : Request} (hcall : r.isDirectoryCall = true)
    (s : σ) :
    let abort? := (e.exchange r s).told.abort?
    (abort? = none ∨ abort? = some (.failure .transportClosed)) ∧
      ((dir s).closed = true → abort? = some (.failure .transportClosed)) := by
  intro abort?
  obtain ⟨d, d', hbefore, hreplies, -⟩ := he.calls r s hcall
  have habort : abort? = if d.closed then some (.failure .transportClosed) else none :=
    hreplies.abort? hcall
  rw [habort]
  refine ⟨?_, fun hclosed => ?_⟩
  · split
    · exact .inr rfl
    · exact .inl rfl
  · exact if_pos (hbefore.evolves.unwritten hclosed).closed

end Surroundings

/-- **The directory of a world may be shut at any instant**, and the installer and the transport may
do any operations. -/
theorem World.closable {ρ : Type} {home : Node} {installer : Installer (World ρ)}
    {transport : Transport (World ρ)}
    (hinstaller : ∀ source w, (installer source).Makes
      (fun w w' => Evolves w.directory w'.directory) w)
    (htransport : ∀ database peers timeoutMs w, (transport database peers timeoutMs).Makes
      (fun w w' => Evolves w.directory w'.directory) w) :
    (surroundings home installer transport).Closable World.directory where
  calls r w hcall := by
    refine ⟨w.directory, ((surroundings home installer transport).exchange r w).after.directory,
      .inl rfl, ?_, .inl rfl⟩
    cases r with
    | homeStatus | databases | status | onlineNodes => exact ⟨rfl, rfl⟩
    | setStatus key s =>
      simp only [Surroundings.exchange, Surroundings.answer, Process.update, Process.finish,
        surroundings, view, setStatus, Directory.Replies]
      cases w.directory.setStatus key s with
      | ok d => exact .inl ⟨rfl, rfl⟩
      | error e => exact .inr ⟨e, rfl, rfl, rfl⟩
    | install | heartbeat | note => cases hcall
  note _ _ := .inl rfl
  installer := hinstaller
  transport := htransport

end Upkeep
