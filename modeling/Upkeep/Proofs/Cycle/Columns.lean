import Mathlib.Data.List.Basic
import Upkeep.Proofs.Stall.Rounds

/-!
# Checks that take each database by itself

The copies of one database make up a `Column` of the directory.  A check goes by a `Rule` if the turn
of a database looks at nothing but its column and changes nothing but its column.

* `Check.GoesBy` : the turns of a check go by a rule.
* `Check.GoesBy.gather` : **a check that goes by a rule treats every database as if it were the only
  one**, in whatever order it takes them.
-/

namespace Upkeep

/-- The statuses of the copies of one database, by the node that holds them. -/
abbrev Column := Node → Option CopyStatus

/-- The copies of a database. -/
def Directory.column (d : Directory) (database : Database) : Column :=
  fun node => d.entries.find? ⟨node, database⟩

/-- What the turn of a database comes to. -/
structure Turned (β : Type) where
  /-- What it finds. -/
  found : List β
  /-- The copies of the database afterwards. -/
  column : Column

/-- What the turn of a database comes to, by the copies of that database. -/
abbrev Rule (β : Type) := Database → Column → Turned β

/-- A rule that is left out unless the home node is a full member. -/
def Rule.given {β : Type} (standing : MemberStatus) (rule : Rule β) : Rule β := fun database c =>
  if standing.isOnline then rule database c else ⟨[], c⟩

/-- What the turn of a database finds is about that database. -/
def Rule.About {β : Type} (rule : Rule β) (about : β → Database) : Prop :=
  ∀ database c, ∀ x ∈ (rule database c).found, about x = database

theorem Rule.About.given {β : Type} {rule : Rule β} {about : β → Database} (h : rule.About about)
    (standing : MemberStatus) : (rule.given standing).About about := by
  intro database c x hx
  rw [Rule.given] at hx
  split at hx
  · exact h database c x hx
  · exact nomatch hx

namespace Directory

variable {d d' : Directory} {database other : Database}

theorem OnlyOf.column_eq (h : d.OnlyOf database d') (hne : other ≠ database) :
    d'.column other = d.column other :=
  funext fun _ => h.entries _ hne

theorem column_write (d : Directory) (node : Node) (database : Database) (s : CopyStatus) :
    (d.write ⟨node, database⟩ s).column database =
      Function.update (d.column database) node (some s) := by
  funext other
  rw [column, find?_write, Function.update_apply]
  by_cases h : other = node
  · subst h
    rw [if_pos rfl, if_pos rfl]
  · rw [if_neg h, if_neg fun hkey => h (congrArg CopyKey.node hkey).symm]
    rfl

theorem onlyOf_strike (d : Directory) (database : Database) (peers : List Node) :
    d.OnlyOf database (d.strike database peers) := by
  induction peers generalizing d with
  | nil => exact .refl database d
  | cons peer rest ih => exact (d.onlyOf_write ⟨peer, database⟩ .offline).trans (ih _)

theorem column_strike (d : Directory) (database : Database) (peers : List Node) :
    (d.strike database peers).column database =
      fun node => if node ∈ peers then some .offline else d.column database node := by
  induction peers generalizing d with
  | nil => rfl
  | cons peer rest ih =>
    have hrest : (d.strike database (peer :: rest)).column database = _ :=
      ih (d.write ⟨peer, database⟩ .offline)
    rw [hrest, column_write]
    funext node
    grind [Function.update_apply]

end Directory

/-- The directory of a world is one of this node with these members, and it is open. -/
structure World.Ready {ρ : Type} (home : Node) (members : Table Node MemberStatus) (w : World ρ) :
    Prop where
  /-- It became what it is by operations on a fresh directory. -/
  reach : w.directory.Reachable home
  /-- It is open. -/
  opened : w.directory.closed = false
  /-- It has these members. -/
  members_eq : w.directory.members = members

/-- What a check does to a directory keeps it ready. -/
theorem World.Ready.of_evolves {ρ : Type} {home : Node} {members : Table Node MemberStatus}
    {w w' : World ρ} (hw : w.Ready home members) (hevolves : w.directory.Evolves w'.directory)
    (hframe : w.directory.SameFrame w'.directory) : w'.Ready home members :=
  ⟨hw.reach.evolves hevolves, hframe.closed.trans hw.opened, hframe.members.trans hw.members_eq⟩

namespace Check

variable {ρ β : Type} {e : Surroundings (World ρ)} {I : World ρ → Prop}
  {f : Database → Check (List β)} {rule : Rule β}

/-- A check looks at nothing but the copies of the database whose turn it is, and changes no
others. -/
def GoesBy (e : Surroundings (World ρ)) (I : World ρ → Prop) (f : Database → Check (List β))
    (rule : Rule β) : Prop :=
  ∀ database w, I w → ∃ acts w',
    (f database).Runs e w acts (.ok (rule database (w.directory.column database)).found) w' ∧
      I w' ∧ w.directory.OnlyOf database w'.directory ∧
      w'.directory.column database = (rule database (w.directory.column database)).column

/-- What a check comes to that goes through databases by a rule, each of them by itself. -/
structure Swept (rule : Rule β) (databases : List Database) (d : Directory) (found : List β)
    (d' : Directory) : Prop where
  /-- What it finds of each database, in their order. -/
  found_eq : found = databases.flatMap fun database => (rule database (d.column database)).found
  /-- The copies of these databases are as their turns leave them. -/
  column_eq : ∀ database ∈ databases, d'.column database =
    (rule database (d.column database)).column
  /-- The copies of the others are as they were. -/
  other_eq : ∀ database ∉ databases, d'.column database = d.column database
  /-- Nothing else has changed. -/
  frame : d.SameFrame d'

/-- **A check that goes by a rule treats every database by itself**, in whatever order it takes
them. -/
theorem GoesBy.gather (hf : GoesBy e I f rule) {databases : List Database}
    (hnodup : databases.Nodup) {w : World ρ} (hw : I w) :
    ∃ acts found w', (Check.gather f databases).Runs e w acts (.ok found) w' ∧ I w' ∧
      Swept rule databases w.directory found w'.directory := by
  induction databases generalizing w with
  | nil =>
    exact ⟨[], [], w, runs_pure [] w, hw, rfl, nofun, fun _ _ => rfl, .refl _⟩
  | cons database rest ih =>
    obtain ⟨hnew, hrest⟩ := List.nodup_cons.1 hnodup
    obtain ⟨acts, w₁, hturn, hw₁, honly, hcolumn⟩ := hf database w hw
    obtain ⟨acts', found, w₂, hgather, hw₂, hswept⟩ := ih hrest hw₁
    -- the databases after this one come to their turns as they were
    have hsame : ∀ other ∈ rest, w₁.directory.column other = w.directory.column other :=
      fun other hother => honly.column_eq fun h => hnew (h ▸ hother)
    refine ⟨acts ++ acts', _, w₂, hturn.bind hgather.map, hw₂, ?_, ?_, ?_,
      honly.toSameFrame.trans hswept.frame⟩
    · have hfound : rest.flatMap (fun other => (rule other (w₁.directory.column other)).found) =
          rest.flatMap fun other => (rule other (w.directory.column other)).found :=
        List.flatMap_congr fun other hother => by rw [hsame other hother]
      rw [hswept.found_eq, hfound, List.flatMap_cons]
    · intro other hother
      obtain rfl | hother := List.mem_cons.1 hother
      · rw [hswept.other_eq other hnew, hcolumn]
      · rw [hswept.column_eq other hother, hsame other hother]
    · intro other hother
      obtain ⟨hne, hother⟩ := not_or.1 (List.mem_cons.not.1 hother)
      rw [hswept.other_eq other hother, honly.column_eq hne]

/-- A check that a node makes as a full member only goes by its rule, or leaves everything as it
is. -/
theorem GoesBy.ifOnline {home : Node} {members : Table Node MemberStatus}
    {installer : Installer (World ρ)} {transport : Transport (World ρ)}
    (hf : GoesBy (World.surroundings home installer transport) (World.Ready home members) f rule)
    {standing : MemberStatus} (hstanding : members.find? home = some standing)
    (leftOut : MemberStatus → Report) {w : World ρ} (hw : w.Ready home members) :
    ∃ acts found w',
      Check.Runs (World.surroundings home installer transport) (do
        let standing ← homeStatus
        if standing.isOnline then Check.gather f (← databases)
        else
          report (leftOut standing)
          return []) w acts (.ok found) w' ∧
      w'.Ready home members ∧
      Swept (rule.given standing) w.directory.hosted w.directory found w'.directory := by
  have hstatus : homeStatus.Runs (World.surroundings home installer transport) w []
      (.ok standing) w :=
    runs_homeStatus hw.opened hw.reach.home_eq (hw.members_eq ▸ hstanding)
  by_cases honline : standing.isOnline = true
  · obtain ⟨acts, found, w', hgather, hw', hswept⟩ := hf.gather hw.reach.nodup_hosted hw
    have hgiven : rule.given standing = rule := funext₂ fun _ _ => if_pos honline
    refine ⟨acts, found, w', hstatus.after_quiet ?_, hw', by rwa [hgiven]⟩
    rw [if_pos honline]
    exact (runs_databases hw.opened).after_quiet hgather
  · have hgiven : rule.given standing = fun _ c => ⟨[], c⟩ := funext₂ fun _ _ => if_neg honline
    refine ⟨[], [], w.note (.report (leftOut standing)), hstatus.after_quiet ?_,
      ⟨hw.reach, hw.opened, hw.members_eq⟩, ?_⟩
    · rw [if_neg honline]
      exact (runs_report _ w).after_quiet (runs_pure [] _)
    · rw [hgiven]
      exact ⟨by simp, fun _ _ => rfl, fun _ _ => rfl, .refl _⟩

section Found

variable {databases : List Database} {d d' : Directory} {found : List β} {about : β → Database}

/-- What a check found of one database is what its turn found. -/
theorem Swept.filter_found (h : Swept rule databases d found d') (hnodup : databases.Nodup)
    (habout : rule.About about) (database : Database) :
    found.filter (about · = database) =
      if database ∈ databases then (rule database (d.column database)).found else [] := by
  rw [h.found_eq]
  clear h
  induction databases with
  | nil => rfl
  | cons first rest ih =>
    obtain ⟨hnew, hrest⟩ := List.nodup_cons.1 hnodup
    rw [List.flatMap_cons, List.filter_append, ih hrest]
    by_cases hfirst : first = database
    · subst hfirst
      rw [if_neg hnew, if_pos (List.mem_cons_self ..), List.append_nil, List.filter_eq_self]
      intro x hx
      exact decide_eq_true (habout _ _ x hx)
    · have hnone : (rule first (d.column first)).found.filter (about · = database) = [] :=
        List.filter_eq_nil_iff.2 fun x hx h =>
          hfirst ((habout _ _ x hx).symm.trans (of_decide_eq_true h))
      simp [hnone, Ne.symm hfirst]

/-- What a check found comes in the order of the databases. -/
theorem Swept.found_eq_flatMap (h : Swept rule databases d found d') (hnodup : databases.Nodup)
    (habout : rule.About about) :
    found = databases.flatMap fun database => found.filter (about · = database) := by
  refine h.found_eq.trans (List.flatMap_congr fun database hdatabase => ?_)
  rw [h.filter_found hnodup habout, if_pos hdatabase]

end Found

end Check

end Upkeep
