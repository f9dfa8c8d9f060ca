import Mathlib.Data.List.Induction
import Upkeep.Proofs.Directory.Conduct

/-!
# What a directory answers, told from what was done to it

A directory keeps tables, a list, a flag and a count.  What its calls answer is told here without
them, from its *deeds*: the operations that were done to it since it was created, in order, each
with the answer it was given.

* `Directory.deeds` : the operations and their answers.
* `LastGiven` : the value that the last pair for a key gives it.
* `Directory.Recorded` : what a directory keeps, as a function of its deeds; every operation keeps
  to that.
* `Directory.Recounts` : what a directory answers, in terms of its deeds.
* `Directory.recounts` : **every directory answers so**, whatever was done to it.
-/

namespace Upkeep

/-- Of the pairs with key `k`, the last one has the value `v`. -/
def LastGiven {κ ν : Type} (pairs : List (κ × ν)) (k : κ) (v : ν) : Prop :=
  ∃ before after, pairs = before ++ (k, v) :: after ∧ ∀ pair ∈ after, pair.1 ≠ k

namespace Table

variable {κ ν : Type} [DecidableEq κ] {pairs : List (κ × ν)} {k k' : κ} {v v' : ν}

/-! ### Tables filled with one pair after another -/

theorem lastGiven_concat :
    LastGiven (pairs ++ [(k', v')]) k v ↔ if k' = k then v' = v else LastGiven pairs k v := by
  constructor
  · rintro ⟨before, after, h, hafter⟩
    obtain rfl | ⟨rest, last, rfl⟩ := after.eq_nil_or_concat
    · obtain ⟨-, hpair⟩ := List.append_inj' h rfl
      obtain ⟨rfl, rfl⟩ : k' = k ∧ v' = v := by simpa using hpair
      rw [if_pos rfl]
    · rw [List.concat_eq_append] at h hafter
      rw [← List.cons_append, ← List.append_assoc] at h
      obtain ⟨hpairs, hlast⟩ := List.append_inj' h rfl
      obtain rfl : (k', v') = last := by simpa using hlast
      rw [if_neg (hafter (k', v') (by simp))]
      exact ⟨before, rest, hpairs, fun pair hpair => hafter pair (by simp [hpair])⟩
  · split
    · rename_i hk
      subst hk
      rintro rfl
      exact ⟨pairs, [], rfl, by simp⟩
    · rename_i hk
      rintro ⟨before, after, rfl, hafter⟩
      refine ⟨before, after ++ [(k', v')], by simp, fun pair hpair => ?_⟩
      obtain hpair | hpair := List.mem_append.1 hpair
      · exact hafter pair hpair
      · obtain rfl := List.mem_singleton.1 hpair
        exact hk

theorem ofList_concat (pairs : List (κ × ν)) (pair : κ × ν) :
    ofList (pairs ++ [pair]) = (ofList pairs).put pair.1 pair.2 := List.foldl_append ..

/-- The value under a key is the one that it was last given. -/
theorem find?_ofList_eq_some : (ofList pairs).find? k = some v ↔ LastGiven pairs k v := by
  induction pairs using List.reverseRecOn with
  | nil => simp [ofList, LastGiven]
  | append_singleton pairs pair ih =>
    rw [ofList_concat, find?_put, lastGiven_concat]
    split
    · exact Option.some_inj
    · exact ih

theorem eraseDups_concat (l : List κ) (k : κ) :
    (l ++ [k]).eraseDups = if k ∈ l.eraseDups then l.eraseDups else l.eraseDups ++ [k] := by
  rw [List.eraseDups_append]
  by_cases h : k ∈ l
  · simp [h, List.removeAll]
  · simp [h, List.removeAll, List.eraseDups_cons]

/-- The keys are in order of first mention. -/
theorem keys_ofList (pairs : List (κ × ν)) :
    (ofList pairs).keys = (pairs.map Prod.fst).eraseDups := by
  induction pairs using List.reverseRecOn with
  | nil => rfl
  | append_singleton pairs pair ih =>
    rw [ofList_concat, keys_put, ih, List.map_append, List.map_singleton, eraseDups_concat]

theorem nodup_keys_ofList (pairs : List (κ × ν)) : (ofList pairs).keys.Nodup := by
  induction pairs using List.reverseRecOn with
  | nil => exact List.nodup_nil
  | append_singleton pairs pair ih =>
    rw [ofList_concat]
    exact nodup_keys_put ih _ _

theorem nodup_eraseDups (l : List κ) : l.eraseDups.Nodup := by
  have h := nodup_keys_ofList (l.map fun k => (k, ()))
  rwa [keys_ofList, List.map_map, show Prod.fst ∘ (fun k : κ => (k, ())) = id from rfl,
    List.map_id] at h

end Table

/-- An operation that was done, and what was answered to it. -/
structure Deed where
  /-- The operation. -/
  op : Operation
  /-- The answer. -/
  answer : Except ClusterFailure Answer
  deriving Repr, DecidableEq

namespace Deed

/-- The member that is named, and the standing it is given. -/
def mention? : Deed → Option (Node × MemberStatus)
  | ⟨.enroll node status, _⟩ => some (node, status)
  | _ => none

/-- The database that is registered. -/
def registration? : Deed → Option Database
  | ⟨.host database, _⟩ => some database
  | _ => none

/-- What becomes of the entry of a copy: it is set, if that succeeds, or dropped. -/
def change? : Deed → Option (CopyKey × Option CopyStatus)
  | ⟨.setStatus key status, .ok _⟩ => some (key, some status)
  | ⟨.forget key, _⟩ => some (key, none)
  | _ => none

/-- Whether a status was set with success. -/
def isWrite : Deed → Bool
  | ⟨.setStatus _ _, .ok _⟩ => true
  | _ => false

end Deed

namespace Directory

/-- The operations that are done to a directory, each with its answer. -/
def deeds (d : Directory) (ops : List Operation) : List Deed :=
  List.zipWith Deed.mk ops (d.performAll ops).1

/-- The last deed is that of the last operation, done to what the others left. -/
theorem deeds_concat (d : Directory) (ops : List Operation) (op : Operation) :
    d.deeds (ops ++ [op]) = d.deeds ops ++ [⟨op, ((d.performAll ops).2.perform op).1⟩] := by
  induction ops generalizing d with
  | nil => rfl
  | cons op' ops ih => exact congrArg _ (ih (d.perform op').2)

/-- What a deed did to a directory. -/
structure Effect (deed : Deed) (d d' : Directory) : Prop where
  /-- The same node keeps it. -/
  home : d'.home = d.home
  /-- A node that is named gets its standing. -/
  members : d'.members = deed.mention?.elim d.members fun pair => d.members.put pair.1 pair.2
  /-- A database that is registered is hosted. -/
  hosted : d'.hosted = deed.registration?.elim d.hosted fun database =>
    if database ∈ d.hosted then d.hosted else d.hosted ++ [database]
  /-- The entry of one copy may change. -/
  entries : ∀ key, d'.entries.find? key = deed.change?.elim (d.entries.find? key) fun pair =>
    if pair.1 = key then pair.2 else d.entries.find? key
  /-- It may be shut. -/
  closed : d'.closed = true ↔ d.closed = true ∨ deed.op = .close
  /-- A success in setting a status is counted. -/
  writes : d'.writes = d.writes + if deed.isWrite then 1 else 0

/-- **What an operation does can be read off the operation and its answer.** -/
theorem effect_perform (d : Directory) (op : Operation) :
    Effect ⟨op, (d.perform op).1⟩ d (d.perform op).2 := by
  cases op with
  | enroll node s => exact ⟨rfl, rfl, rfl, fun _ => rfl, by simp [perform, enroll], rfl⟩
  | host database =>
    simp only [perform, host]
    split
    · exact ⟨rfl, rfl, (if_pos ‹_›).symm, fun _ => rfl, by simp, rfl⟩
    · exact ⟨rfl, rfl, (if_neg ‹_›).symm, fun _ => rfl, by simp, rfl⟩
  | setStatus key s =>
    cases hset : d.setStatus key s with
    | ok d' =>
      obtain ⟨-, rfl⟩ := setStatus_eq_ok.1 hset
      simp only [perform, hset]
      exact ⟨rfl, rfl, rfl, fun _ => Table.find?_put _ _ _ _, by simp, rfl⟩
    | error e =>
      simp only [perform, hset]
      exact ⟨rfl, rfl, rfl, fun _ => rfl, by simp, rfl⟩
  | forget key =>
    exact ⟨rfl, rfl, rfl, fun _ => Table.find?_erase _ _ _, by simp [perform, forget], rfl⟩
  | close => exact ⟨rfl, rfl, rfl, fun _ => rfl, by simp [perform, close], rfl⟩
  | writes | homeName | homeStatus | databases | status | onlineNodes | onlinePeers | snapshot =>
    exact ⟨rfl, rfl, rfl, fun _ => rfl, by simp [perform], rfl⟩

/-- The standings that were given to nodes, that of the home node first. -/
def mentions (home : Node) (status : MemberStatus) (deeds : List Deed) :
    List (Node × MemberStatus) :=
  (home, status) :: deeds.filterMap Deed.mention?

/-- What a directory keeps, as a function of what was done to it. -/
structure Recorded (home : Node) (status : MemberStatus) (deeds : List Deed) (d : Directory) :
    Prop where
  /-- The home node never changes. -/
  sameHome : d.home = home
  /-- The members and their standings. -/
  members : d.members = .ofList (mentions home status deeds)
  /-- The hosted databases, in order of first registration. -/
  hosted : d.hosted = (deeds.filterMap Deed.registration?).eraseDups
  /-- The entry of a copy is the status that was last set, unless it was dropped since. -/
  entries : ∀ key, d.entries.find? key =
    ((Table.ofList (deeds.filterMap Deed.change?)).find? key).join
  /-- It is closed once it was shut. -/
  closed : d.closed = true ↔ .close ∈ deeds.map Deed.op
  /-- The count of the writes. -/
  writes : d.writes = deeds.countP Deed.isWrite

section Record

variable {home : Node} {status : MemberStatus} {deed : Deed} {deeds : List Deed} {d d' : Directory}

theorem recorded_create (home : Node) (status : MemberStatus) :
    Recorded home status [] (create home status) :=
  ⟨rfl, rfl, rfl, fun _ => rfl, by simp [create], rfl⟩

/-- One more deed keeps to the record. -/
theorem Recorded.step (h : Recorded home status deeds d) (heffect : Effect deed d d') :
    Recorded home status (deeds ++ [deed]) d' where
  sameHome := heffect.home.trans h.sameHome
  members := by
    rw [heffect.members, h.members]
    cases hmention : deed.mention? with
    | none => simp [mentions, hmention]
    | some pair => simp [mentions, hmention, ← Table.ofList_concat]
  hosted := by
    rw [heffect.hosted, h.hosted]
    cases hregistration : deed.registration? with
    | none => simp [hregistration]
    | some database =>
      simp only [hregistration, List.filterMap_append, List.filterMap_cons, List.filterMap_nil,
        Option.elim_some, Table.eraseDups_concat]
  entries key := by
    rw [heffect.entries, h.entries]
    cases hchange : deed.change? with
    | none => simp [hchange]
    | some pair =>
      simp only [hchange, List.filterMap_append, List.filterMap_cons, List.filterMap_nil,
        Option.elim_some, Table.ofList_concat, Table.find?_put]
      split <;> rfl
  closed := by simp [heffect.closed, h.closed, eq_comm]
  writes := by
    rw [heffect.writes, h.writes, List.countP_append, List.countP_singleton]

/-- **What a directory keeps is a function of its deeds.** -/
theorem recorded_performAll (home : Node) (status : MemberStatus) (ops : List Operation) :
    Recorded home status ((create home status).deeds ops)
      ((create home status).performAll ops).2 := by
  induction ops using List.reverseRecOn with
  | nil => exact recorded_create home status
  | append_singleton ops op ih =>
    rw [deeds_concat, performAll_append]
    exact ih.step (effect_perform _ op)

end Record

/-- What is answered next by a directory that is open, in terms of what was done to it. -/
structure RecountsOpen (home : Node) (status : MemberStatus) (deeds : List Deed) (d : Directory) :
    Prop where
  /-- The home node has the standing that it was last given: it always has one. -/
  homeStatus : ∃ s, LastGiven (mentions home status deeds) home s ∧
    (d.perform .homeStatus).1 = .ok (.standing s)
  /-- The databases are those on the list. -/
  databases : (d.perform .databases).1 = .ok (.names d.hosted)
  /-- A copy has the status that was last set with success, if it was not dropped since. -/
  status : ∀ key s, (d.perform (.status key)).1 = .ok (.copy (some s)) ↔
    LastGiven (deeds.filterMap Deed.change?) key (some s)
  /-- If there is no such status, the answer says that there is none. -/
  missing : ∀ key, (d.perform (.status key)).1 = .ok (.copy none) ↔
    ∀ s, ¬ LastGiven (deeds.filterMap Deed.change?) key (some s)
  /-- The nodes that serve a database are the members whose copy is online, in the order of the
  members and whatever their standings; the peers are those without the home node. -/
  serving : ∀ database, ∃ nodes, (d.perform (.onlineNodes database)).1 = .ok (.names nodes) ∧
    nodes.Sublist d.members.keys ∧
    (∀ node, node ∈ nodes ↔ node ∈ d.members.keys ∧
      (d.perform (.status ⟨node, database⟩)).1 = .ok (.copy (some .online))) ∧
    (d.perform (.onlinePeers database)).1 = .ok (.names (nodes.filter fun node => node ≠ home))
  /-- A status can be set. -/
  setStatus : ∀ key s, (d.perform (.setStatus key s)).1 = .ok .done

/-- What a directory lists and answers next, in terms of what was done to it. -/
structure Recounts (home : Node) (status : MemberStatus) (deeds : List Deed) (d : Directory) :
    Prop where
  /-- The members are in order of first mention, -/
  members : d.members.keys = ((mentions home status deeds).map Prod.fst).eraseDups
  /-- each of them once, -/
  nodup_members : d.members.keys.Nodup
  /-- the home node first. -/
  first : d.members.keys.head? = some home
  /-- Every member has the standing that it was last given. -/
  standing : ∀ node s, d.members.find? node = some s ↔
    LastGiven (mentions home status deeds) node s
  /-- The hosted databases are in order of first registration, -/
  hosted : d.hosted = (deeds.filterMap Deed.registration?).eraseDups
  /-- each of them once. -/
  nodup_hosted : d.hosted.Nodup
  /-- The successes in setting a status are counted. -/
  writes : (d.perform .writes).1 = .ok (.count (deeds.countP Deed.isWrite))
  /-- The name of the home node is always answered. -/
  homeName : (d.perform .homeName).1 = .ok (.name home)
  /-- Once it was shut, everything that may fail fails and changes nothing. -/
  shut : .close ∈ deeds.map Deed.op → ∀ op : Operation, op.isFallible = true →
    d.perform op = (.error .transportClosed, d)
  /-- Until then everything is answered. -/
  opened : .close ∉ deeds.map Deed.op → d.RecountsOpen home status deeds

section Answers

variable {home : Node} {status : MemberStatus} {deeds : List Deed} {d : Directory}

/-- The home node is a member with the standing it was last given. -/
theorem Recorded.find?_home (h : Recorded home status deeds d) :
    ∃ s, d.members.find? home = some s := by
  refine Option.ne_none_iff_exists'.1 fun hnone => ?_
  rw [Table.find?_eq_none_iff, h.members, Table.keys_ofList, List.mem_eraseDups] at hnone
  exact hnone (List.mem_cons_self ..)

/-- The entry of a copy is there exactly if its status was set and not dropped since. -/
theorem Recorded.find?_entries (h : Recorded home status deeds d) (key : CopyKey)
    (s : CopyStatus) : d.entries.find? key = some s ↔
      LastGiven (deeds.filterMap Deed.change?) key (some s) := by
  rw [h.entries, Option.join_eq_some_iff, Table.find?_ofList_eq_some]

theorem perform_status (hopen : d.closed = false) (key : CopyKey) :
    (d.perform (.status key)).1 = .ok (.copy (d.entries.find? key)) := by
  simp [perform, Directory.status, whileOpen_of_open hopen, Except.map]

theorem Recorded.recountsOpen (h : Recorded home status deeds d) (hopen : d.closed = false) :
    d.RecountsOpen home status deeds where
  homeStatus := by
    obtain ⟨s, hs⟩ := h.find?_home
    refine ⟨s, ?_, ?_⟩
    · rwa [← Table.find?_ofList_eq_some, ← h.members]
    · simp [perform, Directory.homeStatus, whileOpen_of_open hopen, Except.map, h.sameHome, hs]
  databases := by simp [perform, Directory.databases, whileOpen_of_open hopen, Except.map]
  status key s := by
    rw [perform_status hopen, ← h.find?_entries]
    simp
  missing key := by
    rw [perform_status hopen]
    simp only [← h.find?_entries, Except.ok.injEq, Answer.copy.injEq]
    exact Option.eq_none_iff_forall_ne_some
  serving database := by
    refine ⟨d.serving database, ?_, List.filter_sublist, fun node => ?_, ?_⟩
    · simp [perform, Directory.onlineNodes, whileOpen_of_open hopen, Except.map]
    · rw [perform_status hopen, mem_serving]
      simp
    · simp [perform, Directory.onlinePeers, Directory.onlineNodes, whileOpen_of_open hopen,
        Except.map, withoutHome, h.sameHome]
  setStatus key s := by
    simp [perform, Directory.setStatus, whileOpen_of_open hopen]

/-- **What a directory answers is what its deeds say**: for every sequence of operations that was
done to it since it was created. -/
theorem recounts (home : Node) (status : MemberStatus) (ops : List Operation) :
    ((create home status).performAll ops).2.Recounts home status
      ((create home status).deeds ops) := by
  have h := recorded_performAll home status ops
  generalize ((create home status).performAll ops).2 = d at h ⊢
  generalize (create home status).deeds ops = deeds at h ⊢
  have hmembers : d.members.keys = ((mentions home status deeds).map Prod.fst).eraseDups := by
    rw [h.members, Table.keys_ofList]
  refine ⟨hmembers, ?_, ?_, fun node s => ?_, h.hosted, ?_, ?_, ?_, fun hclose op hop => ?_,
    fun hclose => ?_⟩
  · rw [h.members]
    exact Table.nodup_keys_ofList _
  · rw [hmembers, mentions, List.map_cons, List.eraseDups_cons, List.head?_cons]
  · rw [h.members, Table.find?_ofList_eq_some]
  · rw [h.hosted]
    exact Table.nodup_eraseDups _
  · rw [perform, h.writes]
  · rw [perform, h.sameHome]
  · exact perform_closed (h.closed.2 hclose) hop
  · exact h.recountsOpen (eq_false_of_ne_true fun hclosed => hclose (h.closed.1 hclosed))

/-- A status counts that was given to a node before it became a member, and so does a member that is
cut off. -/
example : (((create "n1" .online).performAll [.setStatus ⟨"n2", "Orders"⟩ .online,
    .enroll "n2" .offline]).2.perform (.onlinePeers "Orders")).1 = .ok (.names ["n2"]) := by
  decide

end Answers

end Directory

end Upkeep
