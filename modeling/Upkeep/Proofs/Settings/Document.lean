import Mathlib
import Upkeep.Proofs.Settings.Choice
import Upkeep.Proofs.Settings.Reading

/-!
# What a document sets

Every setting is what the document writes for it, or its default, whatever else the document
writes.

* `Settings.parts` : the sections of a document and their settings.
* `Settings.Describes`, `Settings.Fits` : a document gives these settings, and gives some;
  `Decode.settings` reads the settings that it gives (`Settings.settings_eq_ok_iff`).
* `Settings.Alike` : two documents write the same settings, in whatever order and with whatever
  else; they give the same settings (`Settings.Alike.describes_iff`).
* `Settings.ReadAs` : what is read from a text (`Settings.given_or_default`).
-/

namespace Upkeep

open Toml (Value Rows)
open Decode

/-! ### Tables that write the same -/

namespace Toml.Rows

variable {rows rows' : Rows} {keys : List String} {same : Value → Value → Prop} {key : String}

/-- The rows with some keys. -/
def known (keys : List String) (rows : Rows) : Rows := rows.filter fun row => row.1 ∈ keys

/-- Apart from rows with other keys, two tables have the same rows, in some order. -/
def Alike (keys : List String) (same : Value → Value → Prop) (rows rows' : Rows) : Prop :=
  ∃ shuffled, List.Forall₂ (fun row row' => row.1 = row'.1 ∧ same row.2 row'.2)
    (rows.known keys) shuffled ∧ shuffled.Perm (rows'.known keys)

theorem find?_known (hkey : key ∈ keys) : (rows.known keys).find? key = rows.find? key := by
  induction rows with
  | nil => rfl
  | cons row rows ih =>
    rw [known, List.filter_cons, find?_cons]
    split_ifs with hrow heq heq
    · rw [find?_cons, if_pos heq]
    · rw [find?_cons, if_neg heq]
      exact ih
    · rw [← heq] at hrow
      simp [hkey] at hrow
    · exact ih

theorem find?_perm (hrows : (rows'.map Prod.fst).Nodup) (h : rows.Perm rows') :
    rows.find? key = rows'.find? key := by
  have hnodup : (rows.map Prod.fst).Nodup := (h.map Prod.fst).nodup_iff.2 hrows
  refine Option.ext fun v => ⟨fun hv => ?_, fun hv => ?_⟩
  · exact find?_of_mem hrows (h.mem_iff.1 (mem_of_find? hv))
  · exact find?_of_mem hnodup (h.mem_iff.2 (mem_of_find? hv))

theorem find?_forall₂
    (h : List.Forall₂ (fun row row' => row.1 = row'.1 ∧ same row.2 row'.2) rows rows') :
    Option.Rel same (rows.find? key) (rows'.find? key) := by
  induction h with
  | nil => exact .none
  | cons hrow _ ih =>
    rw [find?_cons, find?_cons, hrow.1]
    split_ifs
    · exact .some hrow.2
    · exact ih

/-- Such tables have the same under each of the keys. -/
theorem Alike.find? (h : rows.Alike keys same rows') (hrows' : rows'.Distinct)
    (hkey : key ∈ keys) : Option.Rel same (rows.find? key) (rows'.find? key) := by
  obtain ⟨shuffled, hsame, hperm⟩ := h
  have hknown : ((rows'.known keys).map Prod.fst).Nodup :=
    hrows'.nodup.sublist (List.filter_sublist.map Prod.fst)
  have hleft : (rows.known keys).find? key = rows.find? key := find?_known hkey
  have hright : (rows'.known keys).find? key = rows'.find? key := find?_known hkey
  rw [← hleft, ← hright, ← find?_perm hknown hperm]
  exact find?_forall₂ hsame

theorem Alike.find?_eq (h : rows.Alike keys (· = ·) rows') (hrows' : rows'.Distinct)
    (hkey : key ∈ keys) : rows.find? key = rows'.find? key := by
  have hrel := h.find? hrows' hkey
  generalize rows.find? key = v at hrel
  generalize rows'.find? key = v' at hrel
  cases hrel with
  | some heq => rw [heq]
  | none => rfl

end Toml.Rows

/-! ### Sections -/

/-- A section of a document. -/
structure Part where
  /-- Its name. -/
  name : String
  /-- What its settings make up. -/
  Record : Type
  /-- Its settings among all settings. -/
  get : Settings → Record
  /-- Its settings by themselves. -/
  settings : List (Setting Record)
  /-- No two of them have one key. -/
  nodup : (settings.map Setting.key).Nodup
  /-- There are no others. -/
  ext : ∀ a b, (∀ x ∈ settings, x.get a = x.get b) → a = b

namespace Part

/-- The keys of its settings. -/
def keys (p : Part) : List String := p.settings.map Setting.key

/-- The rows of the section in a document; a section that is missing has none. -/
def rows? (p : Part) (rows : Rows) : Option Rows :=
  match rows.find? p.name with
  | some v => rowsOf? p.keys v
  | none => some []

/-- Each setting of the section is what the section writes for it, or its default. -/
def Given (p : Part) (rows : Rows) (s : Settings) : Prop :=
  ∃ sub, p.rows? rows = some sub ∧ ∀ x ∈ p.settings, x.Given sub (p.get {}) (p.get s)

/-- What the section writes for its settings can be read. -/
def Fits (p : Part) (rows : Rows) : Prop :=
  ∃ sub, p.rows? rows = some sub ∧ ∀ x ∈ p.settings, x.Fits sub

/-- The section of the node. -/
def node : Part :=
  ⟨"node", NodeSettings, (·.node), Setting.ofNode, setNode_follows.nodup, setNode_follows.ext⟩

/-- The section of the health loop. -/
def health : Part :=
  ⟨"health", HealthSettings, (·.health), Setting.ofHealth, setHealth_follows.nodup,
    setHealth_follows.ext⟩

/-- The section of the monitoring endpoint. -/
def endpoint : Part :=
  ⟨"metrics", EndpointSettings, (·.endpoint), Setting.ofEndpoint, setEndpoint_follows.nodup,
    setEndpoint_follows.ext⟩

/-- The section of the cluster. -/
def cluster : Part :=
  ⟨"cluster", ClusterSettings, (·.cluster), Setting.ofCluster, setCluster_follows.nodup,
    setCluster_follows.ext⟩

variable (p : Part) {rows : Rows} {s : Settings}
  {set : p.Record → String → Value → Except Misfit p.Record}

theorem rows?_distinct (hrows : rows.Distinct) {sub : Rows} (hsub : p.rows? rows = some sub) :
    sub.Distinct := by
  unfold rows? at hsub
  split at hsub
  · rename_i v hv
    exact rowsOf?_distinct p.nodup (hrows.value hv) hsub
  · cases hsub
    exact .nil

/-- The section is read as it is given, if a section that sets nothing has the defaults. -/
theorem given_iff (h : Follows set p.settings) (shape : Shape) {start : p.Record}
    (hstart : start = p.get {}) {put : Settings → p.Record → Settings}
    (hput : ∀ s a, p.get (put s a) = a) :
    (Setting.mk p.name p.Record (h.reader shape start) p.get put hput).Given rows {} s ↔
      p.Given rows s := by
  subst hstart
  rw [Setting.Given, Given, rows?]
  cases rows.find? p.name with
  | some v => rfl
  | none =>
    constructor
    · intro hs
      exact ⟨[], rfl, fun x _ => congrArg x.get hs⟩
    · rintro ⟨sub, hsub, hs⟩
      cases hsub
      exact p.ext _ _ hs

/-- The section can be read if it fits. -/
theorem fits_iff (h : Follows set p.settings) (shape : Shape) {start : p.Record}
    {put : Settings → p.Record → Settings} (hput : ∀ s a, p.get (put s a) = a)
    (hrows : rows.Distinct) :
    (Setting.mk p.name p.Record (h.reader shape start) p.get put hput).Fits rows ↔
      p.Fits rows := by
  rw [Setting.Fits, Fits, rows?]
  cases hv : rows.find? p.name with
  | some v =>
    have hreads := h.exists_reads_iff shape start (hrows.value hv)
    simpa [keys] using hreads
  | none => exact iff_of_true nofun ⟨[], rfl, fun x _ => nofun⟩

end Part

namespace Settings

/-- The sections of a document. -/
def parts : List Part := [.node, .health, .endpoint, .cluster]

/-- Settings are those of a document: each of them is what the document writes for it, or its
default. -/
def Describes (rows : Rows) (s : Settings) : Prop := ∀ p ∈ parts, p.Given rows s

/-- The data of a document fits. -/
def Fits (rows : Rows) : Prop := ∀ p ∈ parts, p.Fits rows

variable {rows : Rows} {s : Settings}

/-- **The settings of a document are read.** -/
theorem settings_eq_ok_iff (hrows : rows.Distinct) :
    Decode.settings rows = .ok s ↔ Describes rows s := by
  rw [Decode.settings, setSection_follows.overRows_eq_ok_iff hrows, Describes]
  simp only [Setting.sections, parts, List.forall_mem_cons]
  refine and_congr (Part.given_iff .node setNode_follows .nodeSection rfl _) ?_
  refine and_congr (Part.given_iff .health setHealth_follows .healthSection rfl _) ?_
  refine and_congr (Part.given_iff .endpoint setEndpoint_follows .endpointSection rfl _) ?_
  refine and_congr (Part.given_iff .cluster setCluster_follows .clusterSection rfl _) ?_
  exact iff_of_true (List.forall_mem_nil _) (List.forall_mem_nil _)

/-- Settings are read if the data fits. -/
theorem exists_settings_iff (hrows : rows.Distinct) :
    (∃ s, Decode.settings rows = .ok s) ↔ Fits rows := by
  rw [Decode.settings, setSection_follows.exists_overRows_iff hrows, Fits]
  simp only [Setting.sections, parts, List.forall_mem_cons]
  refine and_congr (Part.fits_iff .node setNode_follows .nodeSection _ hrows) ?_
  refine and_congr (Part.fits_iff .health setHealth_follows .healthSection _ hrows) ?_
  refine and_congr (Part.fits_iff .endpoint setEndpoint_follows .endpointSection _ hrows) ?_
  refine and_congr (Part.fits_iff .cluster setCluster_follows .clusterSection _ hrows) ?_
  exact iff_of_true (List.forall_mem_nil _) (List.forall_mem_nil _)

end Settings

/-! ### Documents that set the same -/

namespace Decode

/-- Two values are one, or they are peers with the same settings, in some order. -/
def SamePeer (v v' : Value) : Prop :=
  v = v' ∨ ∃ rows rows', rowsOf? peerKeys v = some rows ∧ rowsOf? peerKeys v' = some rows' ∧
    rows.Alike peerKeys (· = ·) rows'

/-- Two values are one, or they are lists of such peers, each in its place. -/
def SameValue (v v' : Value) : Prop :=
  v = v' ∨ ∃ isOpen elements isOpen' elements', v = .array isOpen elements ∧
    v' = .array isOpen' elements' ∧ List.Forall₂ SamePeer elements elements'

variable {v v' : Value}

/-- Such peers are the same peer. -/
theorem SamePeer.isPeer_iff {p : PeerSettings} (h : SamePeer v v') (hv : v'.Distinct) :
    IsPeer v p ↔ IsPeer v' p := by
  obtain rfl | ⟨rows, rows', hrows, hrows', halike⟩ := h
  · rfl
  have hdistinct : rows'.Distinct := rowsOf?_distinct (by decide) hv hrows'
  have hname : rows.find? "name" = rows'.find? "name" := halike.find?_eq hdistinct (by decide)
  have hreachable : rows.find? "reachable" = rows'.find? "reachable" :=
    halike.find?_eq hdistinct (by decide)
  simp only [IsPeer, hrows, hrows', Option.some.injEq, exists_eq_left', hname, hreachable]

/-- Neither of them is a text, unless they are one. -/
theorem SamePeer.isText_iff {s : String} (h : SamePeer v v') : IsText v s ↔ IsText v' s := by
  obtain rfl | ⟨rows, rows', hrows, hrows', -⟩ := h
  · rfl
  · refine iff_of_false ?_ ?_
    · rintro rfl
      cases hrows
    · rintro rfl
      cases hrows'

namespace SameValue

/-- What holds of no list holds of both values or of neither. -/
theorem iff_of_forall_array (P : Value → Prop) (h : SameValue v v')
    (hP : ∀ isOpen elements, ¬ P (.array isOpen elements)) : P v ↔ P v' := by
  obtain rfl | ⟨isOpen, elements, isOpen', elements', rfl, rfl, -⟩ := h
  · rfl
  · exact iff_of_false (hP _ _) (hP _ _)

theorem isText_iff {s : String} (h : SameValue v v') : IsText v s ↔ IsText v' s :=
  h.iff_of_forall_array (IsText · s) nofun

theorem isBoolean_iff {b : Bool} (h : SameValue v v') : IsBoolean v b ↔ IsBoolean v' b :=
  h.iff_of_forall_array (IsBoolean · b) nofun

theorem isCount_iff {n : Nat} (h : SameValue v v') : IsCount v n ↔ IsCount v' n :=
  h.iff_of_forall_array (IsCount · n) nofun

/-- They are the same list, if the elements are the same. -/
theorem isListOf_iff {α : Type} {R : Value → α → Prop} {l : List α} (h : SameValue v v')
    (hv : v'.Distinct)
    (hR : ∀ {v v' a}, SamePeer v v' → v'.Distinct → (R v a ↔ R v' a)) :
    IsListOf R v l ↔ IsListOf R v' l := by
  obtain rfl | ⟨isOpen, elements, isOpen', elements', rfl, rfl, hsame⟩ := h
  · rfl
  have helements := Value.distinct_array_iff.1 hv
  simp only [IsListOf, Value.array.injEq, exists_and_left, and_assoc, exists_eq_left']
  clear hv
  induction hsame generalizing l with
  | nil => rfl
  | cons hsame _ ih =>
    obtain ⟨hv, helements⟩ := List.forall_mem_cons.1 helements
    rw [List.forall₂_cons_left_iff, List.forall₂_cons_left_iff]
    refine exists₂_congr fun a rest => and_congr (hR hsame hv) (and_congr_left fun _ => ?_)
    exact ih helements

end SameValue

/-- Such values are read as the same. -/
def Reader.ReadsAlike {α : Type} (r : Reader α) : Prop :=
  ∀ {v v' a}, SameValue v v' → v'.Distinct → (r.Reads v a ↔ r.Reads v' a)

theorem Setting.readsAlike_ofNode : ∀ x ∈ Setting.ofNode, x.reader.ReadsAlike := by
  simp only [Setting.ofNode, List.forall_mem_cons]
  refine ⟨?_, List.forall_mem_nil _⟩
  exact fun h _ => h.isText_iff

theorem Setting.readsAlike_ofHealth : ∀ x ∈ Setting.ofHealth, x.reader.ReadsAlike := by
  simp only [Setting.ofHealth, List.forall_mem_cons]
  refine ⟨?_, ?_, ?_, ?_, List.forall_mem_nil _⟩
  · exact fun h _ => h.isBoolean_iff
  · exact fun h _ => h.isCount_iff
  · exact fun h _ => h.isCount_iff
  · exact fun h _ => h.isBoolean_iff

theorem Setting.readsAlike_ofEndpoint : ∀ x ∈ Setting.ofEndpoint, x.reader.ReadsAlike := by
  simp only [Setting.ofEndpoint, List.forall_mem_cons]
  refine ⟨?_, ?_, List.forall_mem_nil _⟩
  · exact fun h _ => h.isBoolean_iff
  · exact fun h _ => h.isText_iff

theorem Setting.readsAlike_ofCluster : ∀ x ∈ Setting.ofCluster, x.reader.ReadsAlike := by
  simp only [Setting.ofCluster, List.forall_mem_cons]
  refine ⟨?_, ?_, List.forall_mem_nil _⟩
  · exact fun h hv => h.isListOf_iff hv fun h _ => h.isText_iff
  · exact fun h hv => h.isListOf_iff hv fun h hv => h.isPeer_iff hv

end Decode

namespace Settings

variable {rows rows' : Rows} {s : Settings}

theorem readsAlike : ∀ p ∈ parts, ∀ x ∈ p.settings, x.reader.ReadsAlike := by
  simp only [parts, List.forall_mem_cons]
  exact ⟨Setting.readsAlike_ofNode, Setting.readsAlike_ofHealth, Setting.readsAlike_ofEndpoint,
    Setting.readsAlike_ofCluster, List.forall_mem_nil _⟩

/-- Two documents write the same settings: in each section, apart from keys that are not settings,
they have the same rows in some order. -/
def Alike (rows rows' : Rows) : Prop :=
  ∀ p ∈ parts, Option.Rel (Rows.Alike p.keys SameValue) (p.rows? rows) (p.rows? rows')

/-- **Such documents give the same settings.** -/
theorem Alike.describes_iff (h : Alike rows rows') (hrows' : rows'.Distinct) :
    Describes rows s ↔ Describes rows' s := by
  refine forall₂_congr fun p hp => ?_
  have hrel := h p hp
  unfold Part.Given
  generalize p.rows? rows = sub? at hrel
  generalize hsub' : p.rows? rows' = sub'? at hrel
  cases hrel with
  | none => rfl
  | @some sub sub' halike =>
    have hdistinct := p.rows?_distinct hrows' hsub'
    simp only [Option.some.injEq, exists_eq_left']
    refine forall₂_congr fun x hx => ?_
    have hfound := halike.find? hdistinct (List.mem_map_of_mem hx)
    unfold Setting.Given
    generalize sub.find? x.key = v? at hfound
    generalize hv' : sub'.find? x.key = v'? at hfound
    cases hfound with
    | none => rfl
    | some hsame => exact readsAlike p hp x hx hsame (hdistinct.value hv')

end Settings

/-! ### What is read from a text -/

namespace Settings

variable {text : String} {rows : Rows} {s : Settings}

/-- What is read from a text that writes a document. -/
structure ReadAs (text : String) (rows : Rows) : Prop where
  /-- Each setting is what the document writes for it, or its default. -/
  describes : ∀ s, parse text = .ok s ↔ Describes rows s
  /-- There are such settings if the data fits. -/
  fits : (∃ s, parse text = .ok s) ↔ Fits rows
  /-- A setting depends on nothing but what the document writes for it. -/
  independent : ∀ {text' rows' s s'}, Toml.Document.parse? text' = some rows' →
    parse text = .ok s → parse text' = .ok s' → ∀ p ∈ parts, ∀ x ∈ p.settings,
    ∀ {sub sub'}, p.rows? rows = some sub → p.rows? rows' = some sub' →
    sub.find? x.key = sub'.find? x.key → x.get (p.get s) = x.get (p.get s')
  /-- A section that writes none of its settings leaves them all at their defaults. -/
  bare : ∀ {s}, parse text = .ok s → ∀ p ∈ parts, ∀ {sub}, p.rows? rows = some sub →
    (∀ key ∈ p.keys, sub.find? key = none) → p.get s = p.get {}
  /-- Each peer keeps its place, its name and whether it answers. -/
  peers : ∀ {s}, parse text = .ok s → ∀ {sub isOpen entries},
    Part.cluster.rows? rows = some sub → sub.find? "peers" = some (.array isOpen entries) →
    List.Forall₂ IsPeer entries s.cluster.peers
  /-- A document with a peer that has no name gives no settings. -/
  nameless : ∀ {sub isOpen entries entry}, Part.cluster.rows? rows = some sub →
    sub.find? "peers" = some (.array isOpen entries) → entry ∈ entries →
    (∀ peer, rowsOf? peerKeys entry = some peer → peer.find? "name" = none) →
    ∃ misfit, parse text = .error (.misfit misfit)
  /-- A document that writes the same settings, in whatever order and with whatever else, gives the
  same settings. -/
  alike : ∀ {text' rows'}, Toml.Document.parse? text' = some rows' → Alike rows rows' →
    ∀ s, parse text = .ok s ↔ parse text' = .ok s

theorem parse_eq_ok_iff_settings (h : Toml.Document.parse? text = some rows) :
    parse text = .ok s ↔ Decode.settings rows = .ok s := by
  rw [parse_eq_ok_iff, h]
  simp

theorem parse_eq_ok_iff_describes (h : Toml.Document.parse? text = some rows) :
    parse text = .ok s ↔ Describes rows s := by
  rw [parse_eq_ok_iff_settings h, settings_eq_ok_iff (Toml.Document.parse?_distinct h)]

/-- A text that writes a document can only fail because its data does not fit. -/
theorem exists_misfit (h : Toml.Document.parse? text = some rows)
    (hnone : ∀ s, parse text ≠ .ok s) : ∃ misfit, parse text = .error (.misfit misfit) := by
  cases hparse : parse text with
  | ok s => exact absurd hparse (hnone s)
  | error problem =>
    obtain ⟨-, hnone⟩ | ⟨misfit, -, rfl, -, -⟩ := parse_eq_error_iff.1 hparse
    · rw [h] at hnone
      cases hnone
    · exact ⟨misfit, rfl⟩

/-- The peers of a document, in order. -/
theorem Describes.peers (h : Describes rows s) {sub : Rows} {isOpen : Bool}
    {entries : List Value} (hsub : Part.cluster.rows? rows = some sub)
    (hentries : sub.find? "peers" = some (.array isOpen entries)) :
    List.Forall₂ IsPeer entries s.cluster.peers := by
  have hcluster : Part.cluster ∈ parts := by simp [parts]
  obtain ⟨sub', hsub', hgiven⟩ := h _ hcluster
  rw [hsub] at hsub'
  cases hsub'
  have hgiven : ∀ x ∈ Setting.ofCluster, x.Given sub {} s.cluster := hgiven
  simp only [Setting.ofCluster, List.forall_mem_cons] at hgiven
  obtain ⟨-, hpeers, -⟩ := hgiven
  rw [Setting.Given, hentries] at hpeers
  obtain ⟨_, _, heq, hpeers⟩ := hpeers
  cases heq
  exact hpeers

/-- A setting depends on nothing but what a document writes for it. -/
theorem Describes.get_eq {rows' : Rows} {s' : Settings} (h : Describes rows s)
    (h' : Describes rows' s') (hrows : rows.Distinct) {p : Part} (hp : p ∈ parts)
    {x : Setting p.Record} (hx : x ∈ p.settings) {sub sub' : Rows}
    (hsub : p.rows? rows = some sub) (hsub' : p.rows? rows' = some sub')
    (hkey : sub.find? x.key = sub'.find? x.key) : x.get (p.get s) = x.get (p.get s') := by
  obtain ⟨_, heq, hgiven⟩ := h p hp
  obtain ⟨_, heq', hgiven'⟩ := h' p hp
  rw [hsub] at heq
  rw [hsub'] at heq'
  cases heq
  cases heq'
  have hgiven'' : x.Given sub (p.get {}) (p.get s') := by
    rw [Setting.Given, hkey]
    exact hgiven' x hx
  exact (hgiven x hx).unique (p.rows?_distinct hrows hsub) hgiven''

/-- A section that writes none of its settings leaves them all at their defaults. -/
theorem Describes.get_eq_default (h : Describes rows s) {p : Part} (hp : p ∈ parts) {sub : Rows}
    (hsub : p.rows? rows = some sub) (hbare : ∀ key ∈ p.keys, sub.find? key = none) :
    p.get s = p.get {} := by
  obtain ⟨_, heq, hgiven⟩ := h p hp
  rw [hsub] at heq
  cases heq
  refine p.ext _ _ fun x hx => ?_
  have hx' := hgiven x hx
  rw [Setting.Given, hbare x.key (List.mem_map_of_mem hx)] at hx'
  exact hx'

/-- **What is read from a text is what its document writes, and the defaults for the rest.** -/
theorem given_or_default (h : Toml.Document.parse? text = some rows) : ReadAs text rows where
  describes _ := parse_eq_ok_iff_describes h
  fits := by
    simp only [parse_eq_ok_iff_settings h]
    exact exists_settings_iff (Toml.Document.parse?_distinct h)
  independent h' hs hs' p hp x hx := by
    rw [parse_eq_ok_iff_describes h] at hs
    rw [parse_eq_ok_iff_describes h'] at hs'
    exact hs.get_eq hs' (Toml.Document.parse?_distinct h) hp hx
  bare hs p hp := ((parse_eq_ok_iff_describes h).1 hs).get_eq_default hp
  peers hs := ((parse_eq_ok_iff_describes h).1 hs).peers
  nameless {_ _ entries _} hsub hentries hentry hname := by
    refine exists_misfit h fun s hs => ?_
    have hpeers := ((parse_eq_ok_iff_describes h).1 hs).peers hsub hentries
    have hall : ∀ v ∈ entries, ∃ p, IsPeer v p :=
      ((List.forall₂_and_left _ _).1 (hpeers.imp fun v p hp => ⟨⟨p, hp⟩, hp⟩)).1
    obtain ⟨p, peer, hpeer, hfound, -⟩ := hall _ hentry
    rw [hname peer hpeer] at hfound
    cases hfound
  alike h' halike s := by
    rw [parse_eq_ok_iff_describes h, parse_eq_ok_iff_describes h']
    exact halike.describes_iff (Toml.Document.parse?_distinct h')

/-- A document with one peer and a key that is no setting. -/
def onePeer : Rows :=
  [("x", .integer 1), ("cluster", .table .implied
    [("peers", .array true [.table .headed [("name", .text "b")]])])]

/-- A document with the same peer, another such key and a section that sets nothing. -/
def sameOnePeer : Rows :=
  [("cluster", .table .headed
    [("y", .boolean true), ("peers", .array false [.table .closed [("name", .text "b")]])]),
    ("node", .table .headed [])]

theorem alike_onePeer : Alike onePeer sameOnePeer := by
  have hpeer : SamePeer (.table .headed [("name", .text "b")])
      (.table .closed [("name", .text "b")]) :=
    .inr ⟨_, _, rfl, rfl, [("name", .text "b")], .cons ⟨rfl, rfl⟩ .nil, .refl _⟩
  have hpeers : SameValue (.array true [.table .headed [("name", .text "b")]])
      (.array false [.table .closed [("name", .text "b")]]) :=
    .inr ⟨_, _, _, _, rfl, rfl, .cons hpeer .nil⟩
  simp only [Alike, parts, List.forall_mem_cons]
  refine ⟨?node, ?health, ?endpoint, ?cluster, List.forall_mem_nil _⟩
  case node | health | endpoint => exact .some ⟨[], .nil, .refl _⟩
  case cluster =>
    exact .some ⟨[("peers", .array false [.table .closed [("name", .text "b")]])],
      .cons ⟨rfl, hpeers⟩ .nil, .refl _⟩

/-- Texts of these documents give the peer and the defaults. -/
theorem given_or_default_onePeer :
    let s : Settings := { cluster := { peers := [⟨"b", true⟩] } }
    Describes onePeer s ∧
      parse "[cluster]\ny=true\npeers=[\x7bname=\"b\"\x7d]\n[node]" = .ok s := by
  intro s
  have hread : ReadAs "x=1\n[[cluster.peers]]\nname=\"b\"" onePeer := given_or_default (by cbv)
  have hparse : parse "x=1\n[[cluster.peers]]\nname=\"b\"" = .ok s := by cbv
  have hsame : Toml.Document.parse? "[cluster]\ny=true\npeers=[\x7bname=\"b\"\x7d]\n[node]" =
      some sameOnePeer := by cbv
  exact ⟨(hread.describes s).1 hparse, (hread.alike hsame alike_onePeer s).1 hparse⟩

end Settings

end Upkeep
