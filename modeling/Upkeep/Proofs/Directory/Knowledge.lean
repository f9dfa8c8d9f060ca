import Upkeep.Proofs.Cycle.Permits
import Upkeep.Proofs.Directory.Conduct

/-!
# What a check knows of the directory

What a check was told was true of the directory when it was told.  `Directory.Knows` lists what
of it is still true later, however the installer and the transport change the directory by
operations in the meantime.  If they leave the directory alone, more of it is: `Directory.Agrees`.

* `Directory.Knows.told`, `Directory.Agrees.told` : each answer adds to what is known and takes
  nothing away.
* `Directory.LoopStep` : **what the loop does to a directory** that nobody else changes.  It sets a
  copy of the home node online that was offline, or a copy of a peer offline that was online beside
  an online copy of the home node; and it does nothing else (`Directory.Agrees.loopStep`).
* `Directory.LoopStep.serving_ne_nil` : a database that is served stays so.
-/

namespace Upkeep

section Snoc

/-! ### What was told last -/

variable {h : List Told} {r : Request} {x : r.Answer}

theorem mem_snoc {y : Told} (hy : y ∈ h ++ [⟨r, x⟩]) : y ∈ h ∨ y = ⟨r, x⟩ :=
  (List.mem_append.1 hy).imp_right List.mem_singleton.1

/-- A place in a longer list is its end or a place in the list. -/
theorem snoc_split {α : Type} {l before since : List α} {y z : α}
    (heq : l ++ [y] = before ++ z :: since) :
    (y = z ∧ since = []) ∨ ∃ since', since = since' ++ [y] ∧ l = before ++ z :: since' := by
  obtain rfl | ⟨since', y', rfl⟩ := List.eq_nil_or_concat since
  · exact .inl ⟨(List.cons.inj (List.append_inj' heq rfl).2).1, rfl⟩
  · rw [List.concat_eq_append, ← List.cons_append, ← List.append_assoc] at heq
    obtain ⟨rfl, hlast⟩ := List.append_inj' heq rfl
    obtain rfl := (List.cons.inj hlast).1
    exact .inr ⟨since', List.concat_eq_append, rfl⟩

theorem JustTold.of_snoc {key : CopyKey} {status : CopyStatus}
    (hh : JustTold key status (h ++ [⟨r, x⟩])) :
    (⟨r, x⟩ : Told) = ⟨.status key, .ok (some status)⟩ ∨
      (∃ n, r = .note n) ∧ JustTold key status h := by
  obtain ⟨before, since, heq, hsince⟩ := hh
  obtain ⟨hlast, -⟩ | ⟨since', rfl, rfl⟩ := snoc_split heq
  · exact .inl hlast
  · exact .inr ⟨hsince ⟨r, x⟩ (by simp), before, since', rfl, fun y hy => hsince y (by simp [hy])⟩

end Snoc

namespace Directory

/-- What is known of a directory after what was told. -/
structure Knows (home : Node) (h : List Told) (d : Directory) : Prop where
  /-- The home node keeps the directory. -/
  keeper : d.home = home
  /-- What was said to be hosted is hosted. -/
  hosted : ∀ hosted, ⟨.databases, .ok hosted⟩ ∈ h → ∀ database ∈ hosted, database ∈ d.hosted
  /-- Whoever was said to serve a database is a member. -/
  members : ∀ database nodes, ⟨.onlineNodes database, .ok nodes⟩ ∈ h →
    ∀ node ∈ nodes, node ∈ d.members.keys
  /-- A status that was just told is the status of the copy. -/
  just : ∀ key status, JustTold key status h → d.entries.find? key = some status

/-- What the loop does to a directory that nobody else changes. -/
inductive LoopStep (home : Node) (canOffline : Bool) (d : Directory) : Directory → Prop
  /-- Nothing is done. -/
  | stays : LoopStep home canOffline d d
  /-- A copy of the home node is set online. -/
  | restores {d' : Directory} {database : Database} (hhosted : database ∈ d.hosted)
      (hmember : d.members.find? home = some .online)
      (hlocal : d.entries.find? ⟨home, database⟩ = some .offline)
      (h : d.setStatus ⟨home, database⟩ .online = .ok d') : LoopStep home canOffline d d'
  /-- A copy of a peer is set offline beside an online copy of the home node. -/
  | demotes {d' : Directory} {database : Database} {peer : Node} (hallowed : canOffline = true)
      (hhosted : database ∈ d.hosted) (hmember : d.members.find? home = some .online)
      (hlocal : d.entries.find? ⟨home, database⟩ = some .online) (hpeer : peer ≠ home)
      (hpeers : peer ∈ d.members.keys) (honline : d.entries.find? ⟨peer, database⟩ = some .online)
      (h : d.setStatus ⟨peer, database⟩ .offline = .ok d') : LoopStep home canOffline d d'

/-- What is known of a directory after what was told, if nobody else changes it. -/
structure Agrees (home : Node) (h : List Told) (d : Directory) : Prop extends Knows home h d where
  /-- The home node still has the standing that it was said to have. -/
  standing : ∀ status, ⟨.homeStatus, .ok status⟩ ∈ h →
    (d.members.find? home).getD .offline = status
  /-- A copy that was not written to since still has the status that it was said to have. -/
  current : ∀ before since key status, h = before ++ ⟨.status key, .ok status⟩ :: since →
    (∀ x ∈ since, ∀ s, x.request ≠ .setStatus key s) → d.entries.find? key = status
  /-- A database that was said to be served is served. -/
  served : ∀ database nodes, ⟨.onlineNodes database, .ok nodes⟩ ∈ h → nodes ≠ [] →
    d.serving database ≠ []
  /-- Whatever is hosted was said to be hosted. -/
  complete : ∀ hosted, ⟨.databases, .ok hosted⟩ ∈ h → d.hosted = hosted
  /-- A local copy has the status that it was said to have, or it was offline and is online. -/
  locals : ∀ database status, ⟨.status ⟨home, database⟩, .ok status⟩ ∈ h →
    d.entries.find? ⟨home, database⟩ = status ∨
      status = some .offline ∧ d.entries.find? ⟨home, database⟩ = some .online
  /-- A local copy that was set online is online. -/
  restored : ∀ database, ⟨.setStatus ⟨home, database⟩ .online, .ok ()⟩ ∈ h →
    d.entries.find? ⟨home, database⟩ = some .online

variable {home : Node} {canOffline : Bool} {check : CheckName} {h : List Told}
  {d d' : Directory} {r : Request} {x : r.Answer}

/-- A member whose copy is online serves the database. -/
theorem serving_ne_nil (node : Node) {database : Database} (hmember : node ∈ d.members.keys)
    (honline : d.entries.find? ⟨node, database⟩ = some .online) : d.serving database ≠ [] :=
  List.ne_nil_of_mem (mem_serving.2 ⟨hmember, honline⟩)

theorem mem_keys_of_find? {κ ν : Type} [DecidableEq κ] {t : Table κ ν} {k : κ} {v : ν}
    (hk : t.find? k = some v) : k ∈ t.keys := by
  refine Decidable.byContradiction fun hnot => ?_
  rw [(t.find?_eq_none_iff k).2 hnot] at hk
  exact nomatch hk

namespace LoopStep

/-- The loop writes statuses and touches nothing else. -/
theorem same (hstep : LoopStep home canOffline d d') :
    d'.home = d.home ∧ d'.members = d.members ∧ d'.hosted = d.hosted := by
  cases hstep with
  | stays => exact ⟨rfl, rfl, rfl⟩
  | restores _ _ _ h => exact same_setStatus h
  | demotes _ _ _ _ _ _ _ h => exact same_setStatus h

/-- The status of a local copy changes from offline to online and in no other way. -/
theorem local_cases (hstep : LoopStep home canOffline d d') (database : Database) :
    d'.entries.find? ⟨home, database⟩ = d.entries.find? ⟨home, database⟩ ∨
      d.entries.find? ⟨home, database⟩ = some .offline ∧
        d'.entries.find? ⟨home, database⟩ = some .online := by
  cases hstep with
  | stays => exact .inl rfl
  | @restores _ other _ _ hlocal h =>
    rw [find?_setStatus h]
    by_cases hsame : other = database
    · subst hsame
      exact .inr ⟨hlocal, if_pos rfl⟩
    · exact .inl (if_neg fun hkey => hsame (congrArg CopyKey.database hkey))
  | demotes _ _ _ _ hpeer _ _ h =>
    rw [find?_setStatus h]
    exact .inl (if_neg fun hkey => hpeer (congrArg CopyKey.node hkey))

/-- A local copy that is online stays so. -/
theorem local_online (hstep : LoopStep home canOffline d d') {database : Database}
    (honline : d.entries.find? ⟨home, database⟩ = some .online) :
    d'.entries.find? ⟨home, database⟩ = some .online :=
  (hstep.local_cases database).elim (fun hsame => hsame.trans honline) fun h => h.2

/-- No entry is made or dropped. -/
theorem keys_eq (hstep : LoopStep home canOffline d d') : d'.entries.keys = d.entries.keys := by
  have hset : ∀ {key : CopyKey} {s s' : CopyStatus}, d.entries.find? key = some s →
      d.setStatus key s' = .ok d' → d'.entries.keys = d.entries.keys := by
    intro key s s' hold h
    obtain ⟨-, rfl⟩ := setStatus_eq_ok.1 h
    simp only [Table.keys_put, if_pos (mem_keys_of_find? hold)]
  cases hstep with
  | stays => rfl
  | restores _ _ hlocal h => exact hset hlocal h
  | demotes _ _ _ _ _ _ honline h => exact hset honline h

/-- A copy that is being installed or backed up is left alone, and none is made one of these. -/
theorem find?_eq (hstep : LoopStep home canOffline d d') (key : CopyKey) {status : CopyStatus}
    (honline : status ≠ .online) (hoffline : status ≠ .offline) :
    d'.entries.find? key = some status ↔ d.entries.find? key = some status := by
  have hset : ∀ {key' : CopyKey} {s s' : CopyStatus}, d.entries.find? key' = some s →
      s ≠ status → s' ≠ status → d.setStatus key' s' = .ok d' →
      (d'.entries.find? key = some status ↔ d.entries.find? key = some status) := by
    intro key' s s' hold hs hs' h
    rw [find?_setStatus h]
    split
    · rename_i hkey
      subst hkey
      simp [hold, hs, hs']
    · rfl
  cases hstep with
  | stays => rfl
  | restores _ _ hlocal h => exact hset hlocal hoffline.symm honline.symm h
  | demotes _ _ _ _ _ _ hpeer h => exact hset hpeer honline.symm hoffline.symm h

/-- **A database that is served stays so.** -/
theorem serving_ne_nil (hstep : LoopStep home canOffline d d') {database : Database}
    (hserved : d.serving database ≠ []) : d'.serving database ≠ [] := by
  obtain ⟨node, hnode⟩ := List.exists_mem_of_ne_nil _ hserved
  obtain ⟨hmember, honline⟩ := mem_serving.1 hnode
  have hmembers := hstep.same.2.1
  cases hstep with
  | stays => exact hserved
  | restores _ _ _ h =>
    refine Directory.serving_ne_nil node (hmembers ▸ hmember) ?_
    rw [find?_setStatus h]
    split
    · rfl
    · exact honline
  | @demotes _ other peer _ _ hhome hlocal hpeer _ _ h =>
    by_cases hsame : other = database
    · -- the copy of the home node is left, and the home node is a member
      subst hsame
      refine Directory.serving_ne_nil home (hmembers ▸ mem_keys_of_find? hhome) ?_
      rw [find?_setStatus h, if_neg fun hkey => hpeer (congrArg CopyKey.node hkey)]
      exact hlocal
    · refine Directory.serving_ne_nil node (hmembers ▸ hmember) ?_
      rw [find?_setStatus h, if_neg fun hkey => hsame (congrArg CopyKey.database hkey)]
      exact honline

end LoopStep

namespace Responds

variable {C : Directory → Directory → Prop}

theorem to_extends (hC : ∀ d d', C d d' → Evolves d d') (hr : d.Responds C r x d') :
    Extends d d' := by
  cases r with
  | homeStatus | databases | status | onlineNodes => exact hr.1 ▸ .refl d
  | setStatus key s =>
    obtain h | ⟨rfl, -⟩ := hr
    · exact .of_setStatus h
    · exact .refl d'
  | install | heartbeat => exact (hC d d' hr).to_extends
  | note n => exact hr ▸ .refl d

theorem mono {C' : Directory → Directory → Prop} (hC : ∀ d d', C d d' → C' d d')
    (hr : d.Responds C r x d') : d.Responds C' r x d' := by
  cases r with
  | homeStatus | databases | status | setStatus | onlineNodes | note => exact hr
  | install | heartbeat => exact hC d d' hr

/-- Nobody else gives a copy a status. -/
theorem find?_eq {key : CopyKey} (hr : d.Responds Eq r x d') (hne : ∀ s, r ≠ .setStatus key s) :
    d'.entries.find? key = d.entries.find? key := by
  cases r with
  | homeStatus | databases | status | onlineNodes => rw [hr.1]
  | setStatus key' s =>
    obtain h | ⟨rfl, -⟩ := hr
    · rw [find?_setStatus h, if_neg]
      rintro rfl
      exact hne s rfl
    · rfl
  | install | heartbeat | note => cases hr; rfl

end Responds

/-- **Each answer adds to what is known and takes nothing away**, whatever operations an installer
or a transport does in the meantime. -/
theorem Knows.told (hk : Knows home h d) (hr : d.Responds Evolves r x d') :
    Knows home (h ++ [⟨r, x⟩]) d' := by
  -- what was told before stays true, since members and hosted databases are never lost
  have hext := Responds.to_extends (fun _ _ h => h) hr
  refine ⟨hext.home.trans hk.keeper, fun hosted hmem database hd => ?_,
    fun database nodes hmem node hn => ?_, fun key status hjust => ?_⟩
  · obtain hold | hnew := mem_snoc hmem
    · exact hext.hosted database (hk.hosted hosted hold database hd)
    · cases hnew
      obtain ⟨rfl, hanswer⟩ := hr
      obtain ⟨-, rfl⟩ := whileOpen_eq_ok.1 (hanswer _ rfl)
      exact hd
  · obtain hold | hnew := mem_snoc hmem
    · exact hext.members node (hk.members database nodes hold node hn)
    · cases hnew
      obtain ⟨rfl, hanswer⟩ := hr
      obtain ⟨-, rfl⟩ := whileOpen_eq_ok.1 (hanswer _ rfl)
      exact (mem_serving.1 hn).1
  -- a status may be overtaken at any request but a note
  · obtain hnew | ⟨⟨n, rfl⟩, hold⟩ := hjust.of_snoc
    · cases hnew
      obtain ⟨rfl, hanswer⟩ := hr
      exact (whileOpen_eq_ok.1 (hanswer _ rfl)).2
    · obtain rfl : d' = d := hr
      exact hk.just key status hold

/-- Before anything is told, nothing but the keeper is known. -/
theorem Knows.nil (hd : d.home = home) : Knows home [] d where
  keeper := hd
  hosted := by simp
  members := by simp
  just := by simp [JustTold]

theorem Agrees.nil (hd : d.home = home) : Agrees home [] d where
  toKnows := .nil hd
  standing := by simp
  current := by simp
  served := by simp
  complete := by simp
  locals := by simp
  restored := by simp

/-- What is known at the turn of a database. -/
theorem Agrees.at_turn (ha : Agrees home h d) {database : Database} {status : CopyStatus}
    (hturn : AtTurn home database status h) :
    database ∈ d.hosted ∧ d.members.find? home = some .online ∧
      d.entries.find? ⟨home, database⟩ = some status := by
  obtain ⟨before, since, hosted, rfl, honline, hhosted, hmem, hsince⟩ := hturn
  refine ⟨ha.hosted hosted (List.mem_append_left _ hhosted) database hmem, ?_, ?_⟩
  · have hstanding := ha.standing .online (List.mem_append_left _ honline)
    cases hfind : d.members.find? home with
    | none => simp [hfind] at hstanding
    | some standing => simpa [hfind] using hstanding
  · refine ha.current before since _ _ rfl fun x hx s heq => hsince x hx ?_
    rw [heq]
    rfl

/-- **The loop does nothing else.** -/
theorem Agrees.loopStep (ha : Agrees home h d) (hp : Permits home canOffline check h r)
    (hr : d.Responds Eq r x d') : LoopStep home canOffline d d' := by
  cases hp with
  | homeStatus | databases | status | onlineNodes =>
    obtain ⟨rfl, -⟩ := hr
    exact .stays
  | note | install | heartbeat =>
    cases hr
    exact .stays
  | restore hturn =>
    obtain ⟨hhosted, hmember, hlocal⟩ := ha.at_turn hturn
    obtain hset | ⟨rfl, -⟩ := hr
    · exact .restores hhosted hmember hlocal hset
    · exact .stays
  | demote hallowed hpeer hnodes hmember hturn hjust =>
    obtain ⟨hhosted, hhome, hlocal⟩ := ha.at_turn hturn
    obtain hset | ⟨rfl, -⟩ := hr
    · exact .demotes hallowed hhosted hhome hlocal hpeer (ha.members _ _ hnodes _ hmember)
        (ha.just _ _ hjust) hset
    · exact .stays

/-- **Each answer adds to what is known and takes nothing away**, if the installer and the transport
leave the directory alone. -/
theorem Agrees.told (ha : Agrees home h d) (hp : Permits home canOffline check h r)
    (hr : d.Responds Eq r x d') : Agrees home (h ++ [⟨r, x⟩]) d' := by
  have hstep := ha.loopStep hp hr
  have hknows : Knows home (h ++ [⟨r, x⟩]) d' := by
    refine ha.toKnows.told (Responds.mono (fun d d' hd => ?_) hr)
    exact hd ▸ .refl d
  refine ⟨hknows, fun status hmem => ?_, fun before since key status heq hsince => ?_,
    fun database nodes hmem hne => ?_, fun hosted hmem => ?_, fun database status hmem => ?_,
    fun database hmem => ?_⟩
  -- the standing of the home node
  · obtain hold | hnew := mem_snoc hmem
    · rw [hstep.same.2.1]
      exact ha.standing status hold
    · cases hnew
      obtain ⟨rfl, hanswer⟩ := hr
      rw [← ha.keeper]
      exact (whileOpen_eq_ok.1 (hanswer _ rfl)).2
  -- the status of a copy: this very answer, or an older one since which nobody wrote it
  · obtain ⟨hlast, rfl⟩ | ⟨since', rfl, rfl⟩ := snoc_split heq
    · cases hlast
      obtain ⟨rfl, hanswer⟩ := hr
      exact (whileOpen_eq_ok.1 (hanswer _ rfl)).2
    · have hold := ha.current before since' key status rfl fun y hy => hsince y (by simp [hy])
      rw [Responds.find?_eq hr fun s => hsince ⟨r, x⟩ (by simp) s]
      exact hold
  -- a database that was said to be served
  · obtain hold | hnew := mem_snoc hmem
    · exact hstep.serving_ne_nil (ha.served database nodes hold hne)
    · cases hnew
      obtain ⟨rfl, hanswer⟩ := hr
      obtain ⟨-, rfl⟩ := whileOpen_eq_ok.1 (hanswer _ rfl)
      exact hne
  -- the hosted databases
  · obtain hold | hnew := mem_snoc hmem
    · rw [hstep.same.2.2]
      exact ha.complete hosted hold
    · cases hnew
      obtain ⟨rfl, hanswer⟩ := hr
      exact (whileOpen_eq_ok.1 (hanswer _ rfl)).2
  -- a local copy may have come back since, and nothing else can have happened to it
  · obtain hold | hnew := mem_snoc hmem
    · obtain hsame | ⟨hoffline, honline⟩ := hstep.local_cases database
      · rw [hsame]
        exact ha.locals database status hold
      · obtain hthen | ⟨hthen, -⟩ := ha.locals database status hold
        · exact .inr ⟨hthen.symm.trans hoffline, honline⟩
        · exact .inr ⟨hthen, honline⟩
    · cases hnew
      obtain ⟨rfl, hanswer⟩ := hr
      exact .inl (whileOpen_eq_ok.1 (hanswer _ rfl)).2
  -- a local copy that was set online
  · obtain hold | hnew := mem_snoc hmem
    · exact hstep.local_online (ha.restored database hold)
    · cases hnew
      obtain hset | ⟨-, hfailed⟩ := hr
      · rw [find?_setStatus hset, if_pos rfl]
      · exact absurd rfl hfailed

end Directory

end Upkeep
