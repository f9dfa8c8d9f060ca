import Upkeep.Proofs.Cycle.Steps

/-!
# Availability

The health loop never takes the last copy of a database out of service, as long as nobody but the
loop changes the directory.

* `Cycle.availability` : **a database that is served stays so**, however many calls of the cycle are
  interleaved and wherever directory calls fail; and after a cycle on a full member whose repair
  check came to its end, every hosted database whose local copy was online or offline is served.

What carries it: a copy of a peer is set offline only beside a copy of the home node that is
online, and nothing in the loop ever sets that one offline (`Directory.LoopStep`).
-/

namespace Upkeep

variable {σ : Type}

namespace Directory

variable {home : Node} {canOffline : Bool} {d d' : Directory}

/-- **A database that is served stays so**, over any number of steps of the loop. -/
theorem serving_of_loopSteps (hsteps : Relation.ReflTransGen (LoopStep home canOffline) d d')
    {database : Database} (hserved : d.serving database ≠ []) : d'.serving database ≠ [] := by
  induction hsteps with
  | refl => exact hserved
  | tail _ hstep ih => exact hstep.serving_ne_nil ih

/-- The members and the hosted databases stay, and a local copy changes from offline to online and
in no other way. -/
theorem local_of_loopSteps (hsteps : Relation.ReflTransGen (LoopStep home canOffline) d d')
    {database : Database}
    (hlocal : d.entries.find? ⟨home, database⟩ = some .online ∨
      d.entries.find? ⟨home, database⟩ = some .offline) :
    d'.members = d.members ∧ d'.hosted = d.hosted ∧
      (d'.entries.find? ⟨home, database⟩ = some .online ∨
        d'.entries.find? ⟨home, database⟩ = some .offline) := by
  induction hsteps with
  | refl => exact ⟨rfl, rfl, hlocal⟩
  | tail _ hstep ih =>
    obtain ⟨hmembers, hhosted, hstill⟩ := ih
    obtain ⟨-, hmembers', hhosted'⟩ := hstep.same
    refine ⟨hmembers'.trans hmembers, hhosted'.trans hhosted, ?_⟩
    obtain hsame | ⟨-, honline⟩ := hstep.local_cases database
    · rwa [hsame]
    · exact .inl honline

/-- **A database is served once its turn in a repair check is over**, if the home node is a full
member and its local copy is online or offline. -/
theorem serving_of_repaired {h : List Told} {database : Database} (ha : Agrees home h d)
    (hmember : d.members.find? home = some .online) (hrepaired : Repaired home database h)
    (hlocal : d.entries.find? ⟨home, database⟩ = some .online ∨
      d.entries.find? ⟨home, database⟩ = some .offline) : d.serving database ≠ [] := by
  obtain honline | hoffline := hlocal
  · exact serving_ne_nil home (mem_keys_of_find? hmember) honline
  -- an offline copy was offline at its turn as well, since the loop takes none down
  obtain ⟨status, htold, hrest⟩ := hrepaired
  have hstatus : status = some .offline := by
    obtain hsame | ⟨hthen, -⟩ := ha.locals database status htold
    · exact hsame.symm.trans hoffline
    · exact hthen
  obtain hset | ⟨nodes, hnodes, hpeers⟩ := hrest hstatus
  · exact serving_ne_nil home (mem_keys_of_find? hmember) (ha.restored database hset)
  · refine ha.served database nodes hnodes ?_
    rintro rfl
    exact hpeers rfl

end Directory

namespace Cycle

/-- After a repair check that came to its end every hosted database is served whose local copy is
online or offline, and it stays so until the cycle ends. -/
theorem serving_of_repair {e : Surroundings σ} {dir : σ → Directory} (he : e.Reflects dir Eq)
    (policy : DemotionPolicy) {s : σ} {others : List (σ → σ)} {database : Database}
    {attempts : List RecoveryAttempt} (hs : (dir s).home = e.home)
    (hothers : ∀ f ∈ others, ∀ s, dir (f s) = dir s)
    (hmember : (dir s).members.find? e.home = some .online) (hhosted : database ∈ (dir s).hosted)
    (hlocal : (dir s).entries.find? ⟨e.home, database⟩ = some .online ∨
      (dir s).entries.find? ⟨e.home, database⟩ = some .offline)
    (hok : (((Repair.check e.home).run.within e).amid others (opened e s)).1.1 = .ok attempts) :
    (dir (((body e.home policy).within e).amid others s).2).serving database ≠ [] := by
  have hopened : dir (opened e s) = dir s := (he.note _ _).trans (he.note _ _)
  have hbody : ((body e.home policy).within e).amid others s =
      ((rest e.home policy).within e).amid others (opened e s) := rfl
  rw [hbody, rest_eq, Program.within_bind, Process.amid_bind]
  have hsteps : ∀ s s' : σ, Relation.ReflTransGen
      (fun s s' => e.StepsDirectory dir policy.canOffline s s' ∨
        Surroundings.SameDirectory dir s s') s s' →
      Relation.ReflTransGen (Directory.LoopStep e.home policy.canOffline) (dir s) (dir s') := by
    refine fun s s' h => h.lift dir fun a b hab => ?_
    obtain hstep | hsame := hab
    · exact hstep
    · have hdir : dir b = dir a := hsame
      show Directory.LoopStep e.home policy.canOffline (dir a) (dir b)
      rw [hdir]
      exact .stays
  have hrepair := he.check (Repair.check_permits e.home policy.canOffline)
    (s := opened e s) ((congrArg Directory.home hopened).trans hs)
  obtain ⟨hbefore, ⟨h, ha, hpost⟩, hleft⟩ := hrepair.amid (fun _ => rfl) hothers
  generalize ((Repair.check e.home).run.within e).amid others (opened e s) = end_ at *
  -- the directory once the repair check has come to its end
  rw [← hopened] at hlocal
  obtain ⟨hmembers, hhosted', hlocal'⟩ := Directory.local_of_loopSteps (hsteps _ _ hbefore) hlocal
  rw [hopened] at hmembers hhosted'
  have hserved : (dir end_.2).serving database ≠ [] := by
    obtain ⟨standing, hstanding, hrepaired⟩ := hpost attempts hok
    have honline : standing = .online := by
      rw [← ha.standing standing hstanding, hmembers, hmember]
      rfl
    obtain ⟨hosted, htold, hall⟩ := hrepaired honline
    have hmem : database ∈ hosted := by rwa [← ha.complete hosted htold, hhosted']
    exact Directory.serving_of_repaired ha (hmembers ▸ hmember) (hall database hmem) hlocal'
  -- what comes after the repair check takes steps of the loop only
  have hkeeper : e.KeepsDirectory dir end_.2 := ha.keeper
  obtain ⟨hafter, -⟩ := (he.keeps_afterRepair policy end_.1.1 _ hkeeper).amid (fun _ => rfl) hleft
  exact Directory.serving_of_loopSteps (hsteps _ _ hafter) hserved

/-- **Availability is never lost.**  `Surroundings.Reflects` supposes that the installer and the
transport leave the directory alone; directory calls may fail at any point. -/
theorem availability (e : Surroundings σ) (dir : σ → Directory) (he : e.Reflects dir Eq)
    (policy : DemotionPolicy) :
    -- a database that is served after some turns of the calls is served after any further turns
    (∀ (n : Nat) (s : σ) (order order' : List Nat) (database : Database),
      (dir s).home = e.home →
      let p := (Pool.ofFresh n ⟨false, s⟩).steps e policy order
      (dir p.shared.world).serving database ≠ [] →
        (dir (p.steps e policy order').shared.world).serving database ≠ []) ∧
    -- after a cycle on a full member whose repair check came to its end, every hosted database is
    -- served whose local copy was online or offline; other calls may pass over in the meantime
    ∀ (s : σ) (others : List (σ → σ)) (attempts : List RecoveryAttempt),
      (dir s).home = e.home → (∀ f ∈ others, ∀ s, dir (f s) = dir s) →
      (dir s).members.find? e.home = some .online →
      (((Repair.check e.home).run.within e).amid others (opened e s)).1.1 = .ok attempts →
      ∀ database ∈ (dir s).hosted,
        ((dir s).entries.find? ⟨e.home, database⟩ = some .online ∨
          (dir s).entries.find? ⟨e.home, database⟩ = some .offline) →
        (dir (((body e.home policy).within e).amid others s).2).serving database ≠ [] := by
  refine ⟨?_, fun s others attempts hs hothers hmember hok database hhosted hlocal => ?_⟩
  · intro n s order order' database hs p hserved
    exact Directory.serving_of_loopSteps (Pool.loopSteps he policy hs order order') hserved
  · exact serving_of_repair he policy hs hothers hmember hhosted hlocal hok

/-- A node whose peer serves a database that cannot be installed from it, and does not answer. -/
def silentPeer : Surroundings (World Unit) :=
  World.surroundings "n1" (fun _ => .pause 5 (.done (.ok false)))
    fun _ peers _ => .pause 200 (.done (.ok (Table.ofList
      ((peers.filter (· ≠ "n2")).map fun peer => (peer, ⟨peer, "Orders", 1⟩)))))

/-- Three nodes, two databases. -/
def threeNodes : World Unit where
  directory := {
    home := "n1"
    members := .ofList [("n1", .online), ("n2", .online), ("n3", .online)]
    hosted := ["Orders", "Users"]
    entries := .ofList [(⟨"n1", "Orders"⟩, .online), (⟨"n2", "Orders"⟩, .online),
      (⟨"n3", "Orders"⟩, .online), (⟨"n1", "Users"⟩, .offline), (⟨"n2", "Users"⟩, .online)] }
  own := ()

/-- The peer loses the database that is online here and keeps the one that could not be installed. -/
theorem availability_silentPeer :
    let order := [0, 1, 0, 0]
    let p := (Pool.ofFresh 2 ⟨false, threeNodes⟩).steps silentPeer ⟨true, 200⟩ order
    p.shared.world.directory.entries.find? ⟨"n2", "Orders"⟩ = some .offline ∧
      p.shared.world.directory.serving "Orders" ≠ [] ∧
      (((body "n1" ⟨true, 200⟩).within silentPeer).amid [id] threeNodes).2.directory.serving
        "Users" ≠ [] := by
  have hreflects : silentPeer.Reflects World.directory Eq :=
    World.reflects (fun _ _ _ _ => trivial) fun _ _ _ _ _ _ => trivial
  obtain ⟨hstays, hrepaired⟩ := availability silentPeer World.directory hreflects ⟨true, 200⟩
  refine ⟨rfl, ?_, ?_⟩
  · exact hstays 2 threeNodes [] [0, 1, 0, 0] "Orders" rfl (by decide)
  · exact hrepaired threeNodes [id] _ rfl (by simp) rfl rfl "Users" (by decide) (.inr rfl)

end Cycle

end Upkeep
