import Upkeep.Proofs.Heartbeat.Results
import Upkeep.Proofs.Heartbeat.Senders
import Upkeep.Proofs.Stall.Rounds

/-!
# What the stall check decides about a database

Heartbeats are fanned out to probes that leave the directory alone (`FanOut.LeavesDirectory`); they
may do as they like otherwise.  The turn of a hosted database then has three ways to end
(`Stall.Turn`): no heartbeat is sent; or a probe ends the round, and the check with it; or the peers
that gave no answer in time lose their copies, if somebody else gave one and the settings allow it.

* `Directory.Loses` : some copies that were online are offline, and nothing else has changed.
* `Stall.Visited.turn` : **a turn ends in one of the three ways**, as the echo of its heartbeat
  decides.
-/

namespace Upkeep

variable {ρ : Type}

theorem FanOut.LeavesDirectory.spares {f : FanOut (World ρ)} (hf : f.LeavesDirectory) :
    Transport.SparesDirectory f.send := by
  intro database peers timeoutMs w w'
  have hsame : w'.directory = w.directory :=
    hf.toSpares.finish_send hf.takes database peers timeoutMs 0 w
  rw [hsame]
  exact ⟨.refl _, fun hopen => hopen⟩

namespace Echo.Says

variable {echo : Echo} {limit : Nat} {reply : Reply Responses}

/-- If nobody answered, no probe ended the round, and there was no answer in time. -/
theorem unheard (h : echo.Says limit reply) (hnone : Stall.Unanswered reply) :
    ¬echo.BreaksBy limit ∧ ∀ peer, ¬echo.AnswersBy limit peer := by
  cases h with
  | broken cause hcause hbroken =>
    cases hnone with
    | allUnreachable database => cases hcause
  | unanswered hunbroken hsilent => exact ⟨hunbroken, hsilent⟩
  | answered responses hunbroken hsome hheard =>
    cases hnone with
    | empty hempty =>
      obtain ⟨peer, hpeer⟩ := hsome
      have hsome := Table.isEmpty_eq_false.2 ⟨peer, (hheard peer).2 hpeer⟩
      exact absurd (hempty.symm.trans hsome) Bool.noConfusion

/-- If there are answers, no probe ended the round, and those that answered in time are among
them. -/
theorem heard {responses : Responses} (h : echo.Says limit (.ok responses)) :
    ¬echo.BreaksBy limit ∧ (∃ peer, echo.AnswersBy limit peer) ∧
      ∀ peer, responses.contains peer = true ↔ echo.AnswersBy limit peer := by
  cases h with
  | answered _ hunbroken hsome hheard => exact ⟨hunbroken, hsome, hheard⟩

/-- Any other failure says that a probe ended the round. -/
theorem breaksBy {a : Abort} (h : echo.Says limit (.error a))
    (ha : ∀ database, a ≠ .failure (.allUnreachable database)) : echo.BreaksBy limit := by
  cases h with
  | broken cause hcause hbroken => exact hbroken
  | unanswered => exact absurd rfl (ha _)

end Echo.Says

namespace Directory

/-- The copies in `S` that were online are offline, and nothing else has changed. -/
structure Loses (S : CopyKey → Prop) (d d' : Directory) : Prop where
  /-- A copy in `S` that was online is offline. -/
  lost : ∀ key, S key → d.entries.find? key = some .online → d'.entries.find? key = some .offline
  /-- Any other entry is as it was. -/
  kept : ∀ key, ¬(S key ∧ d.entries.find? key = some .online) →
    d'.entries.find? key = d.entries.find? key
  /-- The members are the same. -/
  members : d'.members = d.members

namespace Loses

variable {A B S S' : CopyKey → Prop} {d d' d'' : Directory}

theorem refl (h : ∀ key, ¬S key) : Loses S d d :=
  ⟨fun key hS => absurd hS (h key), fun _ _ => rfl, rfl⟩

theorem congr (h : Loses S d d') (hS : ∀ key, S key ↔ S' key) : Loses S' d d' where
  lost key hkey := h.lost key ((hS key).2 hkey)
  kept key hkey := h.kept key fun hboth => hkey ⟨(hS key).1 hboth.1, hboth.2⟩
  members := h.members

/-- What goes from online to offline is in `S`. -/
theorem lost_iff (h : Loses S d d') (key : CopyKey) :
    d.entries.find? key = some .online ∧ d'.entries.find? key = some .offline ↔
      S key ∧ d.entries.find? key = some .online := by
  constructor
  · rintro ⟨honline, hoffline⟩
    refine ⟨Classical.byContradiction fun hS => ?_, honline⟩
    have hkept := h.kept key fun hboth => hS hboth.1
    exact nomatch (hoffline.symm.trans hkept).trans honline
  · rintro ⟨hS, honline⟩
    exact ⟨honline, h.lost key hS honline⟩

theorem same_or_lost (h : Loses S d d') (key : CopyKey) :
    d'.entries.find? key = d.entries.find? key ∨
      d.entries.find? key = some .online ∧ d'.entries.find? key = some .offline := by
  by_cases hboth : S key ∧ d.entries.find? key = some .online
  · exact .inr ⟨hboth.2, h.lost key hboth.1 hboth.2⟩
  · exact .inl (h.kept key hboth)

theorem trans (h : Loses A d d') (h' : Loses B d' d'') : Loses (fun key => A key ∨ B key) d d'' where
  lost key hkey honline := by
    by_cases hA : A key
    · -- a copy that was lost first is not online, so it stays as it is
      have hlost := h.lost key hA honline
      rw [h'.kept key fun hboth => ?_, hlost]
      rw [hlost] at hboth
      exact nomatch hboth.2
    · have hkept := h.kept key fun hboth => hA hboth.1
      exact h'.lost key (hkey.resolve_left hA) (hkept.trans honline)
  kept key hkey := by
    have hkept := h.kept key fun hboth => hkey ⟨.inl hboth.1, hboth.2⟩
    rw [h'.kept key fun hboth => hkey ⟨.inr hboth.1, hkept.symm.trans hboth.2⟩, hkept]
  members := h'.members.trans h.members

end Loses

end Directory

namespace Stall

variable {f : FanOut (World ρ)} {installer : Installer (World ρ)} {policy : DemotionPolicy}
  {home : Node} {database : Database}

/-- To set offline what is to be set offline of some peers takes their copies that are online, if
the settings allow it. -/
theorem loses_strike (policy : DemotionPolicy) (d : Directory) (database : Database)
    (quiet : List Node) :
    d.Loses (fun key => policy.canOffline = true ∧ key.database = database ∧ key.node ∈ quiet)
      (d.strike database (struck policy d database quiet)) where
  lost key hkey honline := by
    obtain ⟨node, database'⟩ := key
    obtain ⟨hcan, rfl, hmem⟩ := hkey
    rw [Directory.find?_strike, if_pos]
    exact ⟨rfl, List.mem_filter.2 ⟨hmem, by simp [DemotionPolicy.verdict, honline, hcan]⟩⟩
  kept key hkey := by
    obtain ⟨node, database'⟩ := key
    rw [Directory.find?_strike, if_neg]
    rintro ⟨hsame, hstruck⟩
    obtain rfl : database' = database := hsame
    obtain ⟨hmem, hverdict⟩ := List.mem_filter.1 hstruck
    -- only a copy that is online is set offline, and only if that is allowed
    have hboth : d.entries.find? ⟨node, database'⟩ = some .online ∧ policy.canOffline = true := by
      simp only [DemotionPolicy.verdict] at hverdict
      grind
    exact hkey ⟨⟨hboth.2, rfl, hmem⟩, hboth.1⟩
  members := d.members_strike database _

/-- The echo of the heartbeat that is sent for a database if its turn comes in this world. -/
def echoIn (f : FanOut (World ρ)) (home : Node) (database : Database) (w : World ρ) : Echo :=
  let peers := peersOf home w.directory database
  f.echo database peers (w.note (.report (.roundStarted home peers database)))

/-- The copies that a round takes out of service: those of the peers that gave no answer in time,
if somebody gave one and the settings allow it. -/
def Missed (echo : Echo) (policy : DemotionPolicy) (database : Database) (peers : List Node)
    (key : CopyKey) : Prop :=
  policy.canOffline = true ∧ key.database = database ∧ key.node ∈ peers ∧
    ¬echo.AnswersBy policy.timeoutMs key.node ∧
    ∃ other ∈ peers, echo.AnswersBy policy.timeoutMs other

/-- How the turn of a database in the stall check may end. -/
inductive Turn (echo : Echo) (policy : DemotionPolicy) (home : Node) (database : Database)
    (d : Directory) : Reply (List PeerDemotion) → Directory → Prop
  /-- No heartbeat is sent. -/
  | idle (h : holdsRound home d database = false) : Turn echo policy home database d (.ok []) d
  /-- A probe ends the round, and the check with it. -/
  | broken (a : Abort) (h : holdsRound home d database = true)
      (hbroken : echo.BreaksBy policy.timeoutMs) : Turn echo policy home database d (.error a) d
  /-- The silent peers are decided about. -/
  | decided (found : List PeerDemotion) (d' : Directory) (h : holdsRound home d database = true)
      (hunbroken : ¬echo.BreaksBy policy.timeoutMs)
      (hloses : d.Loses (Missed echo policy database (peersOf home d database)) d') :
      Turn echo policy home database d (.ok found) d'

/-- What the heartbeat of a turn is answered is what its echo says. -/
theorem says_of_told {reply : Reply Responses} {w : World ρ} {x : Exchange (World ρ)}
    (hx : x = heartbeatOf home installer f.send policy database
      (peersOf home w.directory database) w)
    (htold : x.told =
      ⟨.heartbeat database (peersOf home w.directory database) policy.timeoutMs, reply⟩) :
    (echoIn f home database w).Says policy.timeoutMs reply := by
  subst hx
  cases htold
  exact f.says_send database _ policy.timeoutMs _

/-- **A round that is held ends as its echo decides.** -/
theorem Held.turn (hf : f.LeavesDirectory) {w : World ρ} {acts : List (Exchange (World ρ))}
    {reply : Reply (List PeerDemotion)} {d' : Directory}
    (hholds : holdsRound home w.directory database = true)
    (h : Held policy database (peersOf home w.directory database) w.directory acts reply d')
    (hbeats : acts.head? = some (heartbeatOf home installer f.send policy database
      (peersOf home w.directory database) w)) :
    Turn (echoIn f home database w) policy home database w.directory reply d' := by
  -- the heartbeat leaves the directory as it is
  have hafter : (heartbeatOf home installer f.send policy database
      (peersOf home w.directory database) w).after.directory = w.directory :=
    hf.toSpares.finish_send hf.takes database _ policy.timeoutMs 0 _
  cases h with
  | unanswered htold hbefore hnone =>
    obtain rfl := Option.some.inj hbeats
    obtain ⟨hunbroken, hsilent⟩ := (says_of_told rfl htold).unheard hnone
    rw [hafter]
    refine .decided [] _ hholds hunbroken (.refl ?_)
    rintro key ⟨-, -, -, -, other, -, hanswer⟩
    exact hsilent other hanswer
  | @decided x writes responses htold hbefore hsome hwrites =>
    obtain rfl := Option.some.inj hbeats
    obtain ⟨hunbroken, ⟨other, hanswer⟩, hheard⟩ := (says_of_told rfl htold).heard
    have hother : other ∈ peersOf home w.directory database := FanOut.peer_mem_of_answersBy hanswer
    rw [hafter]
    refine .decided _ _ hholds hunbroken ((loses_strike policy _ database _).congr fun key => ?_)
    -- who is silent is who gave no answer in time
    have hsilent : key.node ∈ silent (peersOf home w.directory database) responses ↔
        key.node ∈ peersOf home w.directory database ∧
          ¬(echoIn f home database w).AnswersBy policy.timeoutMs key.node := by
      simp only [silent, List.mem_filter, Bool.not_eq_true', ← hheard, Bool.not_eq_true]
    rw [hsilent]
    constructor
    · rintro ⟨hcan, hdatabase, hmem, hquiet⟩
      exact ⟨hcan, hdatabase, hmem, hquiet, other, hother, hanswer⟩
    · rintro ⟨hcan, hdatabase, hmem, hquiet, -⟩
      exact ⟨hcan, hdatabase, hmem, hquiet⟩
  | broken htold hbefore ha =>
    obtain rfl := Option.some.inj hbeats
    rw [hafter]
    exact .broken _ hholds ((says_of_told rfl htold).breaksBy ha)

/-- **The turn of a database ends in one of the three ways**, as the echo of its heartbeat
decides. -/
theorem Visited.turn (hf : f.LeavesDirectory) {v : Visit (World ρ) Database PeerDemotion}
    (h : Visited home policy v) (hbeats : Beats home installer f.send policy v) :
    Turn (echoIn f home v.item v.before) policy home v.item v.before.directory v.reply
      v.after.directory := by
  cases h with
  | idle hidle => exact .idle hidle
  | held hholds hround => exact hround.turn hf hholds (hbeats hholds)

end Stall

end Upkeep
