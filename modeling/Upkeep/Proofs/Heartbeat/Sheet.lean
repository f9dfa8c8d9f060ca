import Mathlib.Data.List.Basic
import Upkeep.Proofs.Heartbeat.Round

/-!
# The sheet of a round

A `Sheet` lists the peers of a round in the order in which they are asked, each with the result of
its probe: after how many milliseconds it is there and what it is, or that there never is one.  A
peer that is asked twice has two rows.  The sheet alone decides what a round comes to and how long
it takes.

* `Sheet.arrivals` : the results that come in time, in the order in which they are taken.
* `Sheet.Collected` : what the round comes to and when, read off the sheet.
* `Sheet.outcome` : the same by taking one result after another.
* `Sheet.collected_outcome` : **the two agree**.
-/

namespace Upkeep

/-- The result of a probe, as it comes in. -/
structure Arrival where
  /-- The peer that was asked. -/
  peer : Node
  /-- After how many milliseconds the result is there. -/
  ms : Nat
  /-- The result. -/
  reply : Reply Ack

namespace Arrival

variable {ping : Ping} {a : Arrival} {cause : Abort}

/-- The answer to a message, if the result is one: it names the database and the number of the
message. -/
def answer? (ping : Ping) (a : Arrival) : Option Ack :=
  match a.reply with
  | .ok ack =>
    if ack.database = ping.database ∧ ack.messageId = ping.messageId then some ack else none
  | .error _ => none

theorem own_of_answer {ack : Ack} (h : a.answer? ping = some ack) :
    ack.database = ping.database ∧ ack.messageId = ping.messageId := by
  unfold answer? at h
  split at h
  · split at h
    · rename_i hown
      obtain rfl := Option.some.inj h
      exact hown
    · exact nomatch h
  · exact nomatch h

/-- The result ends the round, for this cause. -/
def Breaks (a : Arrival) (cause : Abort) : Prop := a.reply = .error cause ∧ cause.EndsRound

instance : (a : Arrival) → Decidable (∃ cause, a.Breaks cause)
  | ⟨_, _, .ok _⟩ => isFalse (by rintro ⟨cause, h, -⟩; cases h)
  | ⟨_, _, .error cause⟩ =>
    decidable_of_iff cause.EndsRound ⟨fun h => ⟨cause, rfl, h⟩, by rintro ⟨_, ⟨⟩, h⟩; exact h⟩

/-- Takes a result that comes in time; one that ends the round tells when. -/
def add (ping : Ping) (responses : Responses) (a : Arrival) : Except (Abort × Nat) Responses :=
  match Verdict.of ping a.reply with
  | .counts ack => .ok (responses.put a.peer ack)
  | .stray _ => .ok responses
  | .failed _ => .ok responses
  | .ends cause => .error (cause, a.ms)

/-- **A result ends the round, or its answer is taken if it is one to the message.** -/
theorem add_cases (ping : Ping) (responses : Responses) (a : Arrival) :
    (∃ cause, a.Breaks cause ∧ a.add ping responses = .error (cause, a.ms)) ∨
      (∀ cause, ¬a.Breaks cause) ∧
        a.add ping responses = .ok ((a.answer? ping).elim responses (responses.put a.peer)) := by
  obtain ⟨peer, ms, reply⟩ := a
  cases reply with
  | ok ack =>
    refine .inr ⟨(fun cause h => nomatch h.1), ?_⟩
    by_cases hack : ack.database = ping.database ∧ ack.messageId = ping.messageId
    · have hanswers : ack.answers ping = true := by simp [Ack.answers, hack]
      simp [add, Verdict.of, hanswers, answer?, hack]
    · have hanswers : ack.answers ping = false := by simpa [Ack.answers] using hack
      simp [add, Verdict.of, hanswers, answer?, hack]
  | error cause =>
    -- of the failures only a transport that is shutting down ends the round
    cases cause with
    | failure e =>
      cases e with
      | transportClosed => exact .inl ⟨_, ⟨rfl, rfl⟩, rfl⟩
      | allUnreachable | install | transport | checkCrashed =>
        refine .inr ⟨?_, rfl⟩
        rintro cause ⟨h, hends⟩
        obtain rfl := Except.error.inj h
        cases hends
    | crash payload => exact .inl ⟨_, ⟨rfl, trivial⟩, rfl⟩

end Arrival

/-- The answer of a peer that was taken last. -/
def lastAnswer? (ping : Ping) (arrivals : List Arrival) (peer : Node) : Option Ack :=
  ((arrivals.filter fun a => a.peer = peer).filterMap (Arrival.answer? ping)).getLast?

/-- Taking results one after another, up to the first that ends the round. -/
theorem foldlM_add (ping : Ping) (arrivals : List Arrival) (responses : Responses) :
    (∃ before a after cause, arrivals = before ++ a :: after ∧ a.Breaks cause ∧
        (∀ b ∈ before, ∀ cause, ¬b.Breaks cause) ∧
        arrivals.foldlM (Arrival.add ping) responses = .error (cause, a.ms)) ∨
      (∀ a ∈ arrivals, ∀ cause, ¬a.Breaks cause) ∧ ∃ responses',
        arrivals.foldlM (Arrival.add ping) responses = .ok responses' ∧
        ∀ peer, responses'.find? peer =
          (lastAnswer? ping arrivals peer).or (responses.find? peer) := by
  induction arrivals generalizing responses with
  | nil => exact .inr ⟨nofun, responses, rfl, fun _ => rfl⟩
  | cons a rest ih =>
    rw [List.foldlM_cons]
    obtain ⟨cause, hbreaks, hadd⟩ | ⟨hspared, hadd⟩ := a.add_cases ping responses
    · exact .inl ⟨[], a, rest, cause, rfl, hbreaks, nofun, by rw [hadd]; rfl⟩
    · rw [hadd]
      obtain ⟨before, b, after, cause, rfl, hbreaks, hbefore, hfold⟩ |
          ⟨hrest, responses', hfold, hfind⟩ :=
        ih ((a.answer? ping).elim responses (responses.put a.peer))
      · exact .inl ⟨a :: before, b, after, cause, rfl, hbreaks,
          List.forall_mem_cons.2 ⟨hspared, hbefore⟩, hfold⟩
      · refine .inr ⟨List.forall_mem_cons.2 ⟨hspared, hrest⟩, responses', hfold, fun peer => ?_⟩
        rw [hfind peer]
        -- the answer of this result is the last one if no later result has one of the same peer
        cases hanswer : a.answer? ping with
        | none => by_cases hpeer : a.peer = peer <;> simp [lastAnswer?, hpeer, hanswer]
        | some ack =>
          by_cases hpeer : a.peer = peer
          · simp only [Option.elim, Table.find?_put, hpeer, lastAnswer?, List.filter_cons,
              decide_true, if_true, List.filterMap_cons, hanswer, List.getLast?_cons]
            cases ((rest.filter fun a => a.peer = peer).filterMap (Arrival.answer? ping)).getLast?
              <;> rfl
          · simp [lastAnswer?, hpeer, Table.find?_put]

/-- The probe of a peer: when its result is there and what it is, if there ever is one. -/
structure Row where
  /-- The peer that is asked. -/
  peer : Node
  /-- After how many milliseconds the result is there, and the result. -/
  result? : Option (Nat × Reply Ack)

namespace Row

/-- The result, as it comes in. -/
def arrival? (row : Row) : Option Arrival := row.result?.map fun r => ⟨row.peer, r.1, r.2⟩

/-- The result is there by the end of the window. -/
def inTime (limit : Nat) (row : Row) : Bool := row.result?.elim false fun r => r.1 ≤ limit

/-- The result is there at once and ends the round. -/
def breaksAtOnce (row : Row) : Bool :=
  match row.result? with
  | some (0, .error cause) => decide cause.EndsRound
  | _ => false

end Row

/-- The probes of a round, in the order in which the peers are asked. -/
abbrev Sheet := List Row

namespace Sheet

variable {sheet : Sheet} {ping : Ping} {limit : Nat}

/-- Results in order of time; of equal times the one asked for first comes first. -/
def inOrder (arrivals : List Arrival) : List Arrival := arrivals.mergeSort fun a b => a.ms ≤ b.ms

/-- All results that ever come, in the order in which the peers are asked. -/
def results (sheet : Sheet) : List Arrival := sheet.filterMap Row.arrival?

/-- The results that come in time, in the order in which they are taken. -/
def arrivals (sheet : Sheet) (limit : Nat) : List Arrival :=
  (inOrder sheet.results).filter fun a => a.ms ≤ limit

/-- How long a round takes that nothing ends before its time: until the last result if all come in
time, and the whole window otherwise. -/
def duration (sheet : Sheet) (limit : Nat) : Nat :=
  if sheet.all (Row.inTime limit) then (sheet.arrivals limit).getLast?.elim 0 Arrival.ms else limit

/-- The peers that are asked: those up to the first whose result ends the round at once. -/
def probed : Sheet → List Node
  | [] => []
  | row :: rest => row.peer :: if row.breaksAtOnce then [] else probed rest

/-- What a round comes to, and after how many milliseconds. -/
inductive Collected (sheet : Sheet) (ping : Ping) (limit : Nat) : Reply Responses → Nat → Prop
  /-- The first result in time that ends the round does so when it comes, whatever was taken before
  and whatever would follow. -/
  | broken {before after : List Arrival} {a : Arrival} {cause : Abort}
      (h : sheet.arrivals limit = before ++ a :: after) (ha : a.Breaks cause)
      (hbefore : ∀ b ∈ before, ∀ other, ¬b.Breaks other) :
      Collected sheet ping limit (.error cause) a.ms
  /-- No result in time ends the round, and none is an answer to the message. -/
  | unanswered (hunbroken : ∀ a ∈ sheet.arrivals limit, ∀ cause, ¬a.Breaks cause)
      (hnone : ∀ a ∈ sheet.arrivals limit, a.answer? ping = none) :
      Collected sheet ping limit (.error (.failure (.allUnreachable ping.database)))
        (sheet.duration limit)
  /-- No result in time ends the round, and each peer with an answer in time is among the responses,
  with the last one of its answers. -/
  | answered {responses : Responses}
      (hunbroken : ∀ a ∈ sheet.arrivals limit, ∀ cause, ¬a.Breaks cause)
      (hsome : ∃ a ∈ sheet.arrivals limit, a.answer? ping ≠ none)
      (hheard : ∀ peer, responses.find? peer = lastAnswer? ping (sheet.arrivals limit) peer) :
      Collected sheet ping limit (.ok responses) (sheet.duration limit)

/-- Takes results one after another in addition to the answers so far.  If none of them ends the
round, it ends after the time that is given. -/
def take (ping : Ping) (arrivals : List Arrival) (responses : Responses) (duration : Nat) :
    Reply Responses × Nat :=
  match arrivals.foldlM (Arrival.add ping) responses with
  | .ok responses => (FanOut.conclude ping responses, duration)
  | .error (cause, ms) => (.error cause, ms)

section Take

variable {a : Arrival} {rest arrivals : List Arrival} {responses responses' : Responses}
  {cause : Abort} {ms duration : Nat}

theorem take_cons_ok (h : a.add ping responses = .ok responses') :
    take ping (a :: rest) responses duration = take ping rest responses' duration := by
  rw [take, List.foldlM_cons, h]
  rfl

theorem take_cons_error (h : a.add ping responses = .error (cause, ms)) :
    take ping (a :: rest) responses duration = (.error cause, ms) := by
  rw [take, List.foldlM_cons, h]
  rfl

end Take

/-- Takes the results that come in time one after another. -/
def outcome (sheet : Sheet) (ping : Ping) (limit : Nat) : Reply Responses × Nat :=
  take ping (sheet.arrivals limit) .empty (sheet.duration limit)

/-- A peer is heard exactly if some result of it is an answer. -/
theorem lastAnswer?_ne_none {arrivals : List Arrival} {peer : Node} :
    lastAnswer? ping arrivals peer ≠ none ↔
      ∃ a ∈ arrivals, a.peer = peer ∧ a.answer? ping ≠ none := by
  simp only [lastAnswer?, ne_eq, List.getLast?_eq_none_iff, List.filterMap_eq_nil_iff,
    List.mem_filter, decide_eq_true_eq, not_forall, and_imp, exists_prop]

/-- **What results come to** that are taken one after another: the first that ends the round does so;
if none does, each peer with an answer is among the responses, if there are any. -/
theorem take_cases (ping : Ping) (arrivals : List Arrival) (duration : Nat) :
    (∃ before a after cause, arrivals = before ++ a :: after ∧ a.Breaks cause ∧
        (∀ b ∈ before, ∀ other, ¬b.Breaks other) ∧
        take ping arrivals .empty duration = (.error cause, a.ms)) ∨
      (∀ a ∈ arrivals, ∀ cause, ¬a.Breaks cause) ∧
        ((∀ a ∈ arrivals, a.answer? ping = none) ∧ take ping arrivals .empty duration =
            (.error (.failure (.allUnreachable ping.database)), duration) ∨
          (∃ a ∈ arrivals, a.answer? ping ≠ none) ∧ ∃ responses : Responses,
            (∀ peer, responses.find? peer = lastAnswer? ping arrivals peer) ∧
            take ping arrivals .empty duration = (.ok responses, duration)) := by
  unfold take
  obtain ⟨before, a, after, cause, h, hbreaks, hbefore, hfold⟩ |
      ⟨hunbroken, responses, hfold, hfind⟩ := foldlM_add ping arrivals .empty
  · exact .inl ⟨before, a, after, cause, h, hbreaks, hbefore, by rw [hfold]⟩
  · have hheard : ∀ peer, responses.find? peer = lastAnswer? ping arrivals peer := by
      intro peer
      rw [hfind peer, Table.find?_empty, Option.or_none]
    rw [hfold]
    dsimp only
    unfold FanOut.conclude
    cases hempty : responses.isEmpty with
    | true =>
      refine .inr ⟨hunbroken, .inl ⟨fun a ha => ?_, rfl⟩⟩
      by_contra hanswer
      have hpeer := lastAnswer?_ne_none.2 ⟨a, ha, rfl, hanswer⟩
      rw [← hheard a.peer] at hpeer
      have hsome : responses.isEmpty = false :=
        Table.isEmpty_eq_false.2 ⟨a.peer, Option.isSome_iff_ne_none.2 hpeer⟩
      exact nomatch hempty.symm.trans hsome
    | false =>
      obtain ⟨peer, hpeer⟩ := Table.isEmpty_eq_false.1 hempty
      rw [Table.contains, hheard peer, Option.isSome_iff_ne_none] at hpeer
      obtain ⟨a, ha, -, hanswer⟩ := lastAnswer?_ne_none.1 hpeer
      exact .inr ⟨hunbroken, .inr ⟨⟨a, ha, hanswer⟩, responses, hheard, rfl⟩⟩

/-- **Taking one result after another comes to what is read off the sheet.** -/
theorem collected_outcome (sheet : Sheet) (ping : Ping) (limit : Nat) :
    sheet.Collected ping limit (sheet.outcome ping limit).1 (sheet.outcome ping limit).2 := by
  unfold outcome
  obtain ⟨before, a, after, cause, h, hbreaks, hbefore, htake⟩ |
      ⟨hunbroken, ⟨hnone, htake⟩ | ⟨hsome, responses, hheard, htake⟩⟩ :=
    take_cases ping (sheet.arrivals limit) (sheet.duration limit)
  · rw [htake]
    exact .broken h hbreaks hbefore
  · rw [htake]
    exact .unanswered hunbroken hnone
  · rw [htake]
    exact .answered hunbroken hsome hheard

theorem ms_le_of_mem_arrivals {a : Arrival} (h : a ∈ sheet.arrivals limit) : a.ms ≤ limit :=
  of_decide_eq_true (List.mem_filter.1 h).2

theorem duration_le (sheet : Sheet) (limit : Nat) : sheet.duration limit ≤ limit := by
  unfold duration
  split
  · cases hlast : (sheet.arrivals limit).getLast? with
    | none => exact Nat.zero_le limit
    | some a => exact ms_le_of_mem_arrivals (List.mem_of_getLast? hlast)
  · exact Nat.le_refl limit

/-- **A round ends with its window at the latest.** -/
theorem Collected.le {reply : Reply Responses} {elapsed : Nat}
    (h : sheet.Collected ping limit reply elapsed) : elapsed ≤ limit := by
  cases h with
  | @broken before after a cause h =>
    have hmem : a ∈ sheet.arrivals limit := by
      rw [h]
      exact List.mem_append_right _ List.mem_cons_self
    exact ms_le_of_mem_arrivals hmem
  | unanswered | answered => exact sheet.duration_le limit

section Sorting

/-! ### Results that are there at once come first -/

variable {α : Type} (key : α → Nat)

/-- Sorting puts the first member before the first one that is not smaller. -/
theorem mergeSort_cons (a : α) (l : List α) :
    let sorted := l.mergeSort fun a b => key a ≤ key b
    (a :: l).mergeSort (fun a b => key a ≤ key b) =
      (sorted.takeWhile fun b => key b < key a) ++ a :: sorted.dropWhile fun b => key b < key a := by
  intro sorted
  have htrans : ∀ a b c, decide (key a ≤ key b) = true → decide (key b ≤ key c) = true →
      decide (key a ≤ key c) = true := by
    intro a b c hab hbc
    simp only [decide_eq_true_eq] at hab hbc ⊢
    omega
  have htotal : ∀ a b, (decide (key a ≤ key b) || decide (key b ≤ key a)) = true := by
    intro a b
    simp only [Bool.or_eq_true, decide_eq_true_eq]
    omega
  obtain ⟨l₁, l₂, hcons, hl, hbefore⟩ := List.mergeSort_cons htrans htotal a l
  have hsorted := List.pairwise_mergeSort htrans htotal (a :: l)
  rw [hcons] at hsorted
  have hfirst : ∀ b ∈ l₁, decide (key b < key a) = true := fun b hb => by
    simpa using hbefore b hb
  have hlast : ∀ b ∈ l₂, decide (key b < key a) = false := fun b hb => by
    have hle := (List.pairwise_cons.1 (List.pairwise_append.1 hsorted).2.1).1 b hb
    simpa using hle
  rw [hcons, show sorted = l₁ ++ l₂ from hl, List.takeWhile_append_of_pos hfirst,
    List.dropWhile_append_of_pos hfirst]
  cases l₂ with
  | nil => simp
  | cons b l₂ =>
    have hb := hlast b List.mem_cons_self
    rw [List.takeWhile_cons, List.dropWhile_cons, hb]
    simp

/-- **What is smallest comes first, in its order.** -/
theorem mergeSort_eq (l : List α) :
    l.mergeSort (fun a b => key a ≤ key b) = l.filter (fun a => key a = 0) ++
      (l.filter fun a => key a ≠ 0).mergeSort fun a b => key a ≤ key b := by
  induction l with
  | nil => simp
  | cons a l ih =>
    rw [mergeSort_cons, ih]
    have hzero : ∀ b ∈ l.filter fun a => key a = 0, key b = 0 := fun b hb => by
      simpa using (List.mem_filter.1 hb).2
    cases hkey : key a with
    | zero =>
      have hnone : ∀ l : List α, (l.takeWhile fun b => decide (key b < 0)) = [] ∧
          (l.dropWhile fun b => decide (key b < 0)) = l := fun l => by cases l <;> simp
      rw [(hnone _).1, (hnone _).2, List.filter_cons_of_pos (by simp [hkey]),
        List.filter_cons_of_neg (by simp [hkey])]
      rfl
    | succ n =>
      have hbefore : ∀ b ∈ l.filter fun a => key a = 0, decide (key b < n + 1) = true := by
        intro b hb
        simp [hzero b hb]
      have hsorted := mergeSort_cons key a (l.filter fun a => key a ≠ 0)
      rw [hkey] at hsorted
      rw [List.takeWhile_append_of_pos hbefore, List.dropWhile_append_of_pos hbefore,
        List.filter_cons_of_neg (by simp [hkey]), List.filter_cons_of_pos (by simp [hkey]), hsorted,
        List.append_assoc]

end Sorting

/-- The results that are there at once, in the order in which the peers are asked. -/
def atOnce (sheet : Sheet) : List Arrival := sheet.results.filter fun a => a.ms = 0

/-- The other results, in the order in which the peers are asked. -/
def later (sheet : Sheet) : List Arrival := sheet.results.filter fun a => a.ms ≠ 0

section Cons

/-! ### One row more -/

variable (peer : Node) (ms : Nat) (reply : Reply Ack) (rest : Sheet)

@[simp] theorem atOnce_cons_never : atOnce (⟨peer, none⟩ :: rest) = atOnce rest := rfl

@[simp] theorem later_cons_never : later (⟨peer, none⟩ :: rest) = later rest := rfl

@[simp] theorem atOnce_cons_now :
    atOnce (⟨peer, some (0, reply)⟩ :: rest) = ⟨peer, 0, reply⟩ :: atOnce rest := rfl

@[simp] theorem later_cons_now : later (⟨peer, some (0, reply)⟩ :: rest) = later rest := rfl

@[simp] theorem atOnce_cons_after :
    atOnce (⟨peer, some (ms + 1, reply)⟩ :: rest) = atOnce rest := rfl

@[simp] theorem later_cons_after :
    later (⟨peer, some (ms + 1, reply)⟩ :: rest) = ⟨peer, ms + 1, reply⟩ :: later rest := rfl

end Cons

theorem arrivals_eq (sheet : Sheet) (limit : Nat) :
    sheet.arrivals limit = sheet.atOnce ++ (inOrder sheet.later).filter fun a => a.ms ≤ limit := by
  have hnow : ∀ a ∈ sheet.atOnce, decide (a.ms ≤ limit) = true := fun a ha => by
    have hzero : a.ms = 0 := by simpa using (List.mem_filter.1 ha).2
    simp [hzero]
  rw [arrivals, inOrder, mergeSort_eq, List.filter_append]
  exact congrArg (· ++ _) (List.filter_eq_self.2 hnow)

theorem ms_eq_zero_of_mem_atOnce {a : Arrival} (h : a ∈ sheet.atOnce) : a.ms = 0 :=
  of_decide_eq_true (List.mem_filter.1 h).2

/-- Every result comes in time exactly if every peer gives one and none is late. -/
theorem all_inTime_iff (sheet : Sheet) (limit : Nat) :
    sheet.all (Row.inTime limit) = true ↔
      (sheet.countP fun row => row.result?.isNone) = 0 ∧ ∀ a ∈ sheet.later, a.ms ≤ limit := by
  induction sheet with
  | nil => simp [later, results]
  | cons row rest ih =>
    rw [List.all_cons, Bool.and_eq_true, ih]
    obtain ⟨peer, none | ⟨ms, reply⟩⟩ := row
    · simp [Row.inTime]
    · cases ms with
      | zero => simp [Row.inTime]
      | succ ms =>
        rw [later_cons_after, List.forall_mem_cons, List.countP_cons_of_neg (by simp)]
        simp [Row.inTime, and_left_comm]

/-- If a result that is there at once ends the round, that is what the round comes to. -/
theorem outcome_of_error {cause : Abort} {ms : Nat}
    (h : sheet.atOnce.foldlM (Arrival.add ping) .empty = .error (cause, ms)) :
    sheet.outcome ping limit = (.error cause, 0) := by
  have hms : ms = 0 := by
    obtain ⟨before, a, after, cause', hmem, -, -, hfold⟩ | ⟨-, responses, hfold, -⟩ :=
      foldlM_add ping sheet.atOnce .empty
    · obtain ⟨-, rfl⟩ := Prod.mk.inj (Except.error.inj (h.symm.trans hfold))
      have hnow : a ∈ sheet.atOnce := by
        rw [hmem]
        exact List.mem_append_right _ List.mem_cons_self
      exact ms_eq_zero_of_mem_atOnce hnow
    · exact nomatch h.symm.trans hfold
  rw [outcome, take, arrivals_eq, List.foldlM_append, h, hms]
  rfl

/-- Otherwise the round goes on with the results that are to come. -/
theorem outcome_of_ok {responses : Responses}
    (h : sheet.atOnce.foldlM (Arrival.add ping) .empty = .ok responses) :
    let inTime := (inOrder sheet.later).filter fun a => a.ms ≤ limit
    sheet.outcome ping limit = take ping inTime responses
      (if (sheet.countP fun row => row.result?.isNone) = 0 ∧ ∀ a ∈ sheet.later, a.ms ≤ limit then
        inTime.getLast?.elim 0 Arrival.ms else limit) := by
  intro inTime
  have harrivals : sheet.arrivals limit = sheet.atOnce ++ inTime := sheet.arrivals_eq limit
  have hlast : (sheet.arrivals limit).getLast?.elim 0 Arrival.ms =
      inTime.getLast?.elim 0 Arrival.ms := by
    rw [harrivals, List.getLast?_append]
    cases inTime.getLast? with
    | some a => rfl
    | none =>
      cases hnow : sheet.atOnce.getLast? with
      | none => rfl
      | some a => exact ms_eq_zero_of_mem_atOnce (List.mem_of_getLast? hnow)
  rw [outcome, duration, hlast, take, harrivals, List.foldlM_append, h]
  simp only [all_inTime_iff]
  rfl

end Sheet

end Upkeep
