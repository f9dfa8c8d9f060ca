import Mathlib.Algebra.Group.Nat.Defs
import Upkeep.Proofs.Program.History
import Upkeep.Proofs.Program.Terms
import Upkeep.Repair

/-!
# What a program wrote and counted

A `Ledger` sums up what a program was told: the statuses it set with success, the events it counted,
and the heartbeats it sent, by what came of them.  Ledgers of parts add up to that of the whole.

* `Check.Yields` : whatever a check is answered, its reply and its ledger are related so.
* `Ledger.Balanced` : every write is counted, as a recovery or as a demotion.
* `Check.Books` : a check whose ledger is balanced however it ends, and as it should be if it ends
  well.
* `Check.Yields.run` : the ledger of a check that runs alone.
-/

namespace Upkeep

variable {σ α β : Type}

/-- What came of a heartbeat: nobody answered, somebody did not, or everybody did.  A heartbeat that
fails for more than want of answers came to nothing. -/
def roundLabel? (peers : List Node) : Reply Responses → Option String
  | .ok responses =>
    if responses.isEmpty then some "unreachable"
    else if ∀ peer ∈ peers, responses.contains peer then some "complete"
    else some "partial"
  | .error (.failure (.allUnreachable _)) => some "unreachable"
  | .error _ => none

namespace Told

/-- Whether a status was set with success. -/
def isWrite : Told → Bool
  | ⟨.setStatus _ _, .ok _⟩ => true
  | _ => false

/-- Whether an event was counted under `c`. -/
def isCount (c : Counter) (x : Told) : Bool := x.request = .note (.count c)

/-- Whether a heartbeat was sent. -/
def isRound : Told → Bool
  | ⟨.heartbeat _ _ _, _⟩ => true
  | _ => false

/-- What came of a heartbeat. -/
def roundLabel? : Told → Option String
  | ⟨.heartbeat _ peers _, x⟩ => Upkeep.roundLabel? peers x
  | _ => none

/-- The hosted databases are told without repetitions. -/
def Proper : Told → Prop
  | ⟨.databases, .ok names⟩ => names.Nodup
  | _ => True

end Told

/-- What was written, counted and sent. -/
@[ext] structure Ledger where
  /-- How many statuses were set. -/
  writes : Nat := 0
  /-- How often each event was counted. -/
  counted : Counter → Nat := fun _ => 0
  /-- How many heartbeats were sent. -/
  sent : Nat := 0
  /-- How many of them came to what. -/
  rounds : String → Nat := fun _ => 0

namespace Ledger

instance : Zero Ledger := ⟨{}⟩

instance : Add Ledger where
  add l l' := ⟨l.writes + l'.writes, fun c => l.counted c + l'.counted c, l.sent + l'.sent,
    fun label => l.rounds label + l'.rounds label⟩

@[simp] theorem writes_zero : (0 : Ledger).writes = 0 := rfl
@[simp] theorem counted_zero (c : Counter) : (0 : Ledger).counted c = 0 := rfl
@[simp] theorem sent_zero : (0 : Ledger).sent = 0 := rfl
@[simp] theorem rounds_zero (label : String) : (0 : Ledger).rounds label = 0 := rfl

variable (l l' : Ledger)

@[simp] theorem writes_add : (l + l').writes = l.writes + l'.writes := rfl
@[simp] theorem counted_add (c : Counter) : (l + l').counted c = l.counted c + l'.counted c := rfl
@[simp] theorem sent_add : (l + l').sent = l.sent + l'.sent := rfl
@[simp] theorem rounds_add (label : String) :
    (l + l').rounds label = l.rounds label + l'.rounds label := rfl

instance : AddMonoid Ledger where
  add_assoc a b c := by ext <;> simp [Nat.add_assoc]
  zero_add a := by ext <;> simp
  add_zero a := by ext <;> simp
  nsmul := nsmulRec

/-- The ledger of what was told. -/
def of (h : List Told) : Ledger where
  writes := h.countP Told.isWrite
  counted c := h.countP (Told.isCount c)
  sent := h.countP Told.isRound
  rounds label := h.countP fun x => x.roundLabel? = some label

theorem of_cons (x : Told) (h : List Told) : of (x :: h) = of [x] + of h := by
  ext <;> simp [of, List.countP_cons, Nat.add_comm]

/-- Every write is counted, as a recovery or as a demotion. -/
def Balanced (l : Ledger) : Prop :=
  l.writes = l.counted (.recoveries "promoted") + l.counted (.recoveries "recovered") +
    l.counted (.demotions "demoted")

theorem balanced_zero : Balanced 0 := rfl

variable {l l'}

theorem Balanced.add (h : l.Balanced) (h' : l'.Balanced) : (l + l').Balanced := by
  unfold Balanced at *
  simp only [writes_add, counted_add]
  omega

/-- One write. -/
def write : Ledger := { writes := 1 }

/-- One event. -/
def count (c : Counter) : Ledger := { counted := fun c' => if c = c' then 1 else 0 }

/-- One heartbeat. -/
def round (label? : Option String) : Ledger :=
  { sent := 1, rounds := fun label => if label? = some label then 1 else 0 }

end Ledger

/-- A program may be told anything that is proper, and its ledger is kept. -/
def Terms.booked : Terms Ledger where
  answers l r x l' := l' = l + .of [⟨r, x⟩] ∧ Told.Proper ⟨r, x⟩
  allows _ _ _ := True

/-- **What is judged to hold in the end holds of the ledger of a program that runs alone.** -/
theorem Program.Meets.ledger {e : Surroundings σ} {Q : α → Ledger → Prop} {p : Program α}
    {l : Ledger} (hp : p.Meets .booked Q l) {s : σ}
    (hproper : ∀ x ∈ p.trace e s, x.told.Proper) :
    Q (p.outcome e s).1 (l + .of ((p.trace e s).map Exchange.told)) := by
  induction p generalizing l s with
  | done a =>
    show Q a (l + 0)
    rw [add_zero]
    exact hp
  | ask r next ih =>
    obtain ⟨hfirst, hrest⟩ := List.forall_mem_cons.1 hproper
    have hnext := ih _ (hp (e.exchange r s).answer _ ⟨rfl, hfirst⟩).2 hrest
    rw [trace_ask, List.map_cons, Ledger.of_cons, ← add_assoc]
    exact hnext

namespace Check

/-- Whatever a check is answered, its reply and its ledger are related by `F`. -/
def Yields (F : Reply α → Ledger → Prop) (c : Check α) : Prop :=
  ∀ l, Program.Meets .booked (fun reply l' => ∃ own, l' = l + own ∧ F reply own) (ExceptT.run c) l

section Rules

/-! ### Rules of the judgement -/

variable {F F' : Reply α → Ledger → Prop} {G : α → Reply β → Ledger → Prop}
  {H : Reply β → Ledger → Prop} {c : Check α} {f : α → Check β}

theorem Yields.mono (hc : c.Yields F) (hF : ∀ reply l, F reply l → F' reply l) : c.Yields F' := by
  refine fun l => (hc l).mono ?_
  rintro reply l' ⟨own, hl', hown⟩
  exact ⟨own, hl', hF reply own hown⟩

theorem Yields.pure {a : α} (ha : F (.ok a) 0) : (Pure.pure a : Check α).Yields F :=
  fun l => ⟨0, (add_zero l).symm, ha⟩

/-- The ledgers of the two halves of a sequence add up. -/
theorem Yields.bind (hc : c.Yields F) (hf : ∀ a, (f a).Yields (G a))
    (herror : ∀ x l, F (.error x) l → H (.error x) l)
    (hok : ∀ a l reply l', F (.ok a) l → G a reply l' → H reply (l + l')) :
    (c >>= f).Yields H := by
  refine fun l => Program.meets_run_bind.2 ((hc l).mono ?_)
  rintro reply _ ⟨own, rfl, hown⟩
  refine ⟨?_, ?_⟩
  · rintro a rfl
    refine (hf a (l + own)).mono ?_
    rintro reply _ ⟨own', rfl, hown'⟩
    exact ⟨own + own', add_assoc l own own', hok a own reply own' hown hown'⟩
  · rintro x rfl
    exact ⟨own, rfl, herror x own hown⟩

/-- **The ledger of a check that runs alone.** -/
theorem Yields.run {e : Surroundings σ} (hc : c.Yields F) {s : σ}
    (hproper : ∀ x ∈ c.run.trace e s, x.told.Proper) :
    F (c.run.outcome e s).1 (.of ((c.run.trace e s).map Exchange.told)) := by
  obtain ⟨own, hsum, hown⟩ := (hc 0).ledger hproper
  rw [zero_add, zero_add] at hsum
  rw [hsum]
  exact hown

end Rules

section Requests

/-! ### The requests of a check -/

/-- A check that writes, counts and sends nothing. -/
abbrev Silent (c : Check α) : Prop := c.Yields fun _ l => l = 0

theorem silent_homeStatus : homeStatus.Silent := by
  rintro l x _ ⟨rfl, -⟩
  exact ⟨trivial, _, rfl, rfl⟩

/-- The hosted databases are told without repetitions. -/
theorem yields_databases :
    databases.Yields fun reply l => l = 0 ∧ ∀ names, reply = .ok names → names.Nodup := by
  rintro l x _ ⟨rfl, hproper⟩
  refine ⟨trivial, _, rfl, rfl, ?_⟩
  rintro names rfl
  exact hproper

theorem silent_databases : databases.Silent := yields_databases.mono fun _ _ h => h.1

theorem silent_status (key : CopyKey) : (status key).Silent := by
  rintro l x _ ⟨rfl, -⟩
  exact ⟨trivial, _, rfl, rfl⟩

theorem silent_onlinePeers (home : Node) (database : Database) :
    (onlinePeers home database).Silent := by
  refine .bind (c := onlineNodes database) (F := fun _ l => l = 0) (G := fun _ _ l => l = 0) ?_
    (fun _ => .pure rfl) (fun _ _ h => h) ?_
  · rintro l x _ ⟨rfl, -⟩
    exact ⟨trivial, _, rfl, rfl⟩
  · rintro _ _ _ _ rfl rfl
    rfl

theorem silent_install (source : InstallSource) : (install source).Silent := by
  rintro l x _ ⟨rfl, -⟩
  exact ⟨trivial, _, rfl, rfl⟩

theorem silent_reply (reply : Reply α) :
    (liftM reply : Check α).Yields fun reply' l => reply' = reply ∧ l = 0 :=
  fun l => ⟨0, (add_zero l).symm, rfl, rfl⟩

/-- A write that fails writes nothing. -/
theorem yields_setStatus (key : CopyKey) (s : CopyStatus) :
    (setStatus key s).Yields fun reply l =>
      (reply = .ok () ∧ l = .write) ∨ ∃ x, reply = .error x ∧ l = 0 := by
  rintro l x _ ⟨rfl, -⟩
  refine ⟨trivial, _, rfl, ?_⟩
  cases x with
  | ok a => exact .inl ⟨rfl, rfl⟩
  | error x => exact .inr ⟨x, rfl, rfl⟩

theorem yields_report (r : Report) :
    (report r).Yields fun reply l => reply = .ok () ∧ l = 0 := by
  rintro l x _ ⟨rfl, -⟩
  exact ⟨trivial, _, rfl, rfl, rfl⟩

theorem yields_count (c : Counter) :
    (count c).Yields fun reply l => reply = .ok () ∧ l = .count c := by
  rintro l x _ ⟨rfl, -⟩
  refine ⟨trivial, _, rfl, rfl, ?_⟩
  ext <;> simp [Ledger.of, Ledger.count, Told.isWrite, Told.isCount, Told.isRound,
    Told.roundLabel?, List.countP_singleton]

theorem yields_heartbeat (database : Database) (peers : List Node) (timeoutMs : Nat) :
    (heartbeat database peers timeoutMs).Yields fun reply l =>
      ∃ x, reply = .ok x ∧ l = .round (roundLabel? peers x) := by
  rintro l x _ ⟨rfl, -⟩
  refine ⟨trivial, _, rfl, x, rfl, ?_⟩
  ext label
  · rfl
  · rfl
  · rfl
  · by_cases h : roundLabel? peers x = some label <;>
      simp [Ledger.of, Ledger.round, Told.roundLabel?, List.countP_singleton, h]

end Requests

/-- However a check ends, its ledger is balanced, and if it ends well, `S` relates its value and its
ledger. -/
def Books (S : α → Ledger → Prop) (c : Check α) : Prop :=
  c.Yields fun reply l => l.Balanced ∧ ∀ a, reply = .ok a → S a l

section Books

variable {S S' : α → Ledger → Prop} {T : α → β → Ledger → Prop} {U : β → Ledger → Prop}
  {c : Check α} {f : α → Check β}

theorem Books.pure {a : α} (ha : S a 0) : (Pure.pure a : Check α).Books S := by
  refine Yields.pure ⟨Ledger.balanced_zero, ?_⟩
  rintro _ ⟨⟩
  exact ha

theorem Books.bind (hc : c.Books S) (hf : ∀ a, (f a).Books (T a))
    (hU : ∀ a b l l', S a l → T a b l' → U b (l + l')) : (c >>= f).Books U := by
  refine Yields.bind hc hf (fun x l h => ⟨h.1, nofun⟩) ?_
  rintro a l reply l' ⟨hl, hS⟩ ⟨hl', hT⟩
  exact ⟨hl.add hl', fun b hb => hU a b l l' (hS a rfl) (hT b hb)⟩

/-- Tidying up the value of a check does not show in a ledger. -/
theorem Books.map {g : α → β} (hc : c.Books S) (hU : ∀ a l, S a l → U (g a) l) :
    (c >>= fun a => Pure.pure (g a)).Books U := by
  refine .bind hc (fun a => .pure (S := fun b l => b = g a ∧ l = 0) ⟨rfl, rfl⟩) ?_
  rintro a _ l _ hS ⟨rfl, rfl⟩
  rw [add_zero]
  exact hU a l hS

/-- What is silent does not show in a ledger. -/
theorem Books.after_silent (hc : c.Silent) (hf : ∀ a, (f a).Books U) : (c >>= f).Books U := by
  refine Yields.bind hc hf ?_ ?_
  · rintro x l rfl
    exact ⟨Ledger.balanced_zero, nofun⟩
  · rintro a l reply l' rfl h
    rwa [zero_add]

/-- Neither does a line for the operators. -/
theorem Yields.after_report {F : Reply α → Ledger → Prop} {d : Check α} (hd : d.Yields F)
    (r : Report) : (report r >>= fun _ => d).Yields F := by
  refine .bind (yields_report r) (fun _ => hd) ?_ ?_
  · rintro x l ⟨⟨⟩, -⟩
  · rintro _ l reply l' ⟨-, rfl⟩ h
    rwa [zero_add]

theorem Books.after_report {d : Check α} (hd : d.Books S) (r : Report) :
    (report r >>= fun _ => d).Books S :=
  Yields.after_report hd r

theorem books_count {c : Counter} (hc : (Ledger.count c).Balanced) :
    (count c).Books fun _ l => l = .count c :=
  (yields_count c).mono fun _ _ ⟨_, hl⟩ => ⟨hl ▸ hc, fun _ _ => hl⟩

theorem books_heartbeat (database : Database) (peers : List Node) (timeoutMs : Nat) :
    (heartbeat database peers timeoutMs).Books fun x l => l = .round (roundLabel? peers x) := by
  refine (yields_heartbeat database peers timeoutMs).mono ?_
  rintro _ _ ⟨x, rfl, rfl⟩
  refine ⟨rfl, ?_⟩
  rintro _ ⟨⟩
  rfl

theorem books_reply (reply : Reply α) :
    (liftM reply : Check α).Books fun a l => reply = .ok a ∧ l = 0 := by
  refine (silent_reply reply).mono ?_
  rintro _ _ ⟨rfl, rfl⟩
  exact ⟨Ledger.balanced_zero, fun a ha => ⟨ha, rfl⟩⟩

theorem books_databases : databases.Books fun names l => l = 0 ∧ names.Nodup :=
  yields_databases.mono fun _ _ ⟨hl, hnames⟩ =>
    ⟨hl ▸ Ledger.balanced_zero, fun names h => ⟨hl, hnames names h⟩⟩

/-- A check may end with counting an event. -/
theorem yields_counted (c : Counter) (a : α) :
    (count c >>= fun _ => Pure.pure a).Yields fun reply l => reply = .ok a ∧ l = .count c := by
  refine .bind (yields_count c) (fun _ => .pure (F := fun reply l => reply = .ok a ∧ l = 0)
    ⟨rfl, rfl⟩) ?_ ?_
  · rintro x l ⟨⟨⟩, -⟩
  · rintro _ l reply l' ⟨-, rfl⟩ ⟨hreply, rfl⟩
    exact ⟨hreply, add_zero _⟩

/-- An event that stands for no write leaves a ledger balanced. -/
theorem Books.of_counted {d : Check α} {c : Counter} {a : α}
    (hd : d.Yields fun reply l => reply = .ok a ∧ l = .count c)
    (hc : (Ledger.count c).Balanced) (hS : S a (.count c)) : d.Books S := by
  refine Yields.mono hd ?_
  rintro _ _ ⟨rfl, rfl⟩
  refine ⟨hc, ?_⟩
  rintro _ ⟨⟩
  exact hS

/-- **A write is balanced once it is counted**, and nothing between the two can fail. -/
theorem Books.settle {key : CopyKey} {s : CopyStatus} {d : Check α} {c : Counter} {a : α}
    (hd : d.Yields fun reply l => reply = .ok a ∧ l = .count c)
    (hc : (Ledger.write + Ledger.count c).Balanced) (hS : S a (.write + .count c)) :
    (setStatus key s >>= fun _ => d).Books S := by
  refine Yields.bind (yields_setStatus key s) (fun _ => hd) ?_ ?_
  · rintro x l (⟨⟨⟩, -⟩ | ⟨-, -, rfl⟩)
    exact ⟨Ledger.balanced_zero, nofun⟩
  · rintro _ l _ _ (⟨-, rfl⟩ | ⟨_, ⟨⟩, -⟩) ⟨rfl, rfl⟩
    refine ⟨hc, ?_⟩
    rintro _ ⟨⟩
    exact hS

/-- Over a list the ledgers of the members add up. -/
theorem Books.gather {g : α → Check (List β)} {A : α → List β → Ledger → Prop}
    {S : List α → List β → Ledger → Prop} (hnil : S [] [] 0)
    (hcons : ∀ a rest found later l l', A a found l → S rest later l' →
      S (a :: rest) (found ++ later) (l + l'))
    (hg : ∀ a, (g a).Books (A a)) : ∀ as, (Check.gather g as).Books (S as)
  | [] => .pure hnil
  | a :: rest => by
    refine .bind (hg a) (fun found => .map (Books.gather hnil hcons hg rest)
      (U := fun b l => ∃ later, b = found ++ later ∧ S rest later l)
      fun later l hlater => ⟨later, rfl, hlater⟩) ?_
    rintro found _ l l' hfound ⟨later, rfl, hlater⟩
    exact hcons a rest found later l l' hfound hlater

end Books

end Check

end Upkeep
