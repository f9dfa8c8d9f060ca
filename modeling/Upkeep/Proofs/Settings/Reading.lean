import Mathlib
import Upkeep.Proofs.Toml.Distinct
import Upkeep.Settings.Decode

/-!
# What the rows of a table write

Settings are taken over row after row.  What comes of it is told here for each setting by itself,
without the order of the rows.

* `Reader` : a way to read values, with what they stand for.
* `Setting`, `Setting.Given` : a setting of a record and its key; it is what a table writes under
  the key, or its default if the key is missing.
* `Follows` : taking over a row changes the setting with its key, as its value says, and no other;
  hence `overRows` gives a record exactly if the table gives each of its settings
  (`Follows.overRows_eq_ok_iff`), and it gives one exactly if all values fit
  (`Follows.exists_overRows_iff`).
* `IsPeer` : a value is a peer; this is when `peer` reads it (`peer_eq_ok_iff`).
* `Setting.ofNode`, `Setting.ofHealth`, `Setting.ofEndpoint`, `Setting.ofCluster` : the settings of
  the sections; `Setting.sections` : the sections.
-/

namespace Upkeep.Decode

open Toml (Value Rows)

/-! ### Single values -/

/-- A value is a text. -/
def IsText (v : Value) (s : String) : Prop := v = .text s

/-- A value is a yes or a no. -/
def IsBoolean (v : Value) (b : Bool) : Prop := v = .boolean b

/-- A value is a number that is not negative. -/
def IsCount (v : Value) (n : Nat) : Prop := v = .integer n

/-- A value is an array, and each of its elements is what stands in its place in a list. -/
def IsListOf {α : Type} (R : Value → α → Prop) (v : Value) (l : List α) : Prop :=
  ∃ isOpen elements, v = .array isOpen elements ∧ List.Forall₂ R elements l

theorem bind_eq_ok_iff {α β : Type} {x : Except Misfit α} {f : α → Except Misfit β} {b : β} :
    (x >>= f) = .ok b ↔ ∃ a, x = .ok a ∧ f a = .ok b := by
  cases x <;> simp [bind, Except.bind]

theorem map_eq_ok_iff {α β : Type} {x : Except Misfit α} {f : α → β} {b : β} :
    (f <$> x) = .ok b ↔ ∃ a, x = .ok a ∧ f a = b := by
  cases x <;> simp

variable {v : Value}

theorem text_eq_ok_iff {s : String} : text v = .ok s ↔ IsText v s := by
  cases v <;> simp [text, IsText]

theorem boolean_eq_ok_iff {b : Bool} : boolean v = .ok b ↔ IsBoolean v b := by
  cases v <;> simp [boolean, IsBoolean]

theorem count_eq_ok_iff {n : Nat} : count v = .ok n ↔ IsCount v n := by
  cases v with
  | integer m =>
    rw [count, IsCount, Value.integer.injEq]
    split_ifs with hm
    · simp only [false_iff]
      omega
    · rw [Except.ok.injEq]
      omega
  | _ => simp [count, IsCount]

theorem mapM_eq_ok_iff {α : Type} {element : Value → Except Misfit α} {elements : List Value}
    {l : List α} : elements.mapM element = .ok l ↔
      List.Forall₂ (fun v a => element v = .ok a) elements l := by
  induction elements generalizing l with
  | nil => simp [pure, Except.pure, eq_comm]
  | cons v elements ih =>
    rw [List.mapM_cons, bind_eq_ok_iff, List.forall₂_cons_left_iff]
    refine exists_congr fun a => ?_
    rw [bind_eq_ok_iff, exists_and_left]
    refine and_congr_right fun _ => exists_congr fun rest => ?_
    rw [ih]
    simp [pure, Except.pure, eq_comm]

theorem list_eq_ok_iff {α : Type} {element : Value → Except Misfit α} {l : List α} :
    list element v = .ok l ↔ IsListOf (fun v a => element v = .ok a) v l := by
  cases v with
  | array isOpen elements => simp [list, IsListOf, mapM_eq_ok_iff]
  | _ => simp [list, IsListOf]

/-- A way to read values. -/
structure Reader (α : Type) where
  /-- What a value stands for. -/
  Reads : Value → α → Prop
  /-- Reads a value. -/
  read : Value → Except Misfit α
  /-- A value is read as what it stands for. -/
  read_eq_ok_iff : ∀ {v a}, v.Distinct → (read v = .ok a ↔ Reads v a)

namespace Reader

variable {α : Type} (r : Reader α)

/-- Texts. -/
def text : Reader String := ⟨IsText, Decode.text, fun _ => text_eq_ok_iff⟩

/-- Truth values. -/
def boolean : Reader Bool := ⟨IsBoolean, Decode.boolean, fun _ => boolean_eq_ok_iff⟩

/-- Numbers that are not negative. -/
def count : Reader Nat := ⟨IsCount, Decode.count, fun _ => count_eq_ok_iff⟩

/-- Lists. -/
def list : Reader (List α) where
  Reads := IsListOf r.Reads
  read := Decode.list r.read
  read_eq_ok_iff := by
    intro v l hv
    rw [list_eq_ok_iff]
    refine exists_congr fun isOpen => exists_congr fun elements => and_congr_right fun heq => ?_
    have helements := Value.distinct_array_iff.1 (heq ▸ hv)
    rw [List.forall₂_iff_get, List.forall₂_iff_get]
    refine and_congr_right fun _ => forall₃_congr fun i hi hl => ?_
    exact r.read_eq_ok_iff (helements _ (List.get_mem ..))

/-- What may be missing, if it is not. -/
def given : Reader (Option α) where
  Reads v a := ∃ b, r.Reads v b ∧ some b = a
  read v := some <$> r.read v
  read_eq_ok_iff hv := by simp only [map_eq_ok_iff, r.read_eq_ok_iff hv]

variable {r}

/-- A value stands for one thing. -/
theorem unique {a b : α} (hv : v.Distinct) (ha : r.Reads v a) (hb : r.Reads v b) : a = b := by
  rw [← r.read_eq_ok_iff hv] at ha hb
  exact Except.ok.inj (ha.symm.trans hb)

end Reader

/-! ### The settings of a record -/

/-- A setting of a record, and the key under which a table writes it. -/
structure Setting (σ : Type) where
  /-- The key. -/
  key : String
  /-- What it can be. -/
  Carrier : Type
  /-- How a value of the key is read. -/
  reader : Reader Carrier
  /-- What it is in a record. -/
  get : σ → Carrier
  /-- Changes it. -/
  put : σ → Carrier → σ
  /-- Then it is what it was changed to. -/
  get_put : ∀ s a, get (put s a) = a

namespace Setting

variable {σ : Type} (x : Setting σ)

/-- The setting is what a table writes under its key, or its default if the key is missing. -/
def Given (rows : Rows) (default s : σ) : Prop :=
  match rows.find? x.key with
  | some v => x.reader.Reads v (x.get s)
  | none => x.get s = x.get default

/-- What a table writes under the key can be read. -/
def Fits (rows : Rows) : Prop := ∀ v, rows.find? x.key = some v → ∃ a, x.reader.Reads v a

variable {x}

/-- At most one thing is given for a setting. -/
theorem Given.unique {rows : Rows} {default s s' : σ} (hrows : rows.Distinct)
    (h : x.Given rows default s) (h' : x.Given rows default s') : x.get s = x.get s' := by
  unfold Given at h h'
  cases hv : rows.find? x.key with
  | some v =>
    rw [hv] at h h'
    exact Reader.unique (hrows.value hv) h h'
  | none =>
    rw [hv] at h h'
    exact h.trans h'.symm

theorem Given.fits {rows : Rows} {default s : σ} (h : x.Given rows default s) : x.Fits rows := by
  intro v hv
  rw [Given, hv] at h
  exact ⟨_, h⟩

end Setting

/-- Taking over a row changes the setting with its key, and nothing if no setting has the key. -/
structure Follows {σ : Type} (set : σ → String → Value → Except Misfit σ)
    (settings : List (Setting σ)) : Prop where
  /-- A row is taken over into the setting with its key. -/
  set_eq : ∀ s name v, set s name v =
    match settings.find? fun x => name = x.key with
    | some x => x.put s <$> x.reader.read v
    | none => .ok s
  /-- No two settings have one key. -/
  nodup : (settings.map Setting.key).Nodup
  /-- A setting does not change with another. -/
  frame : ∀ x ∈ settings, ∀ y ∈ settings, y.key ≠ x.key → ∀ s a, y.get (x.put s a) = y.get s
  /-- The settings make up the record. -/
  ext : ∀ s s', (∀ x ∈ settings, x.get s = x.get s') → s = s'

namespace Follows

variable {σ : Type} {set : σ → String → Value → Except Misfit σ} {settings : List (Setting σ)}
  {rows : Rows} {start s s' : σ} {name : String}

/-- A row changes the setting with its key as its value says, and no other. -/
theorem step (h : Follows set settings) (hv : v.Distinct) (hs : set s name v = .ok s') :
    ∀ x ∈ settings, if name = x.key then x.reader.Reads v (x.get s') else x.get s' = x.get s := by
  intro x hx
  rw [h.set_eq] at hs
  cases hfind : settings.find? fun x => name = x.key with
  | none =>
    have hname : ¬ name = x.key := by simpa using List.find?_eq_none.1 hfind x hx
    rw [hfind] at hs
    cases hs
    rw [if_neg hname]
  | some y =>
    have hy := List.mem_of_find?_eq_some hfind
    have hname : name = y.key := by simpa using List.find?_some hfind
    rw [hfind] at hs
    obtain ⟨a, ha, rfl⟩ := map_eq_ok_iff.1 hs
    split_ifs with hkey
    · obtain rfl := List.inj_on_of_nodup_map h.nodup hx hy (hkey.symm.trans hname)
      rw [x.get_put]
      exact (x.reader.read_eq_ok_iff hv).1 ha
    · exact h.frame y hy x hx (fun heq => hkey (hname.trans heq.symm)) s a

/-- A row is refused only if its value does not fit. -/
theorem total (h : Follows set settings) (hv : v.Distinct)
    (hfits : ∀ x ∈ settings, name = x.key → ∃ a, x.reader.Reads v a) (s : σ) :
    ∃ s', set s name v = .ok s' := by
  rw [h.set_eq]
  cases hfind : settings.find? fun x => name = x.key with
  | none => exact ⟨s, rfl⟩
  | some y =>
    have hname : name = y.key := by simpa using List.find?_some hfind
    obtain ⟨a, ha⟩ := hfits y (List.mem_of_find?_eq_some hfind) hname
    exact ⟨y.put s a, map_eq_ok_iff.2 ⟨a, (y.reader.read_eq_ok_iff hv).2 ha, rfl⟩⟩

theorem given (h : Follows set settings) (hrows : rows.Distinct)
    (hs : overRows set start rows = .ok s) : ∀ x ∈ settings, x.Given rows start s := by
  induction rows generalizing start with
  | nil =>
    cases hs
    intro x _
    exact rfl
  | cons row rows ih =>
    obtain ⟨next, hnext, hs⟩ := bind_eq_ok_iff.1 hs
    intro x hx
    have hstep := h.step hrows.head hnext x hx
    have hrest := ih hrows.tail hs x hx
    unfold Setting.Given at hrest ⊢
    rw [Rows.find?_cons]
    by_cases hkey : row.1 = x.key
    · -- No later row has the key, so the setting stays as this row left it.
      rw [if_pos hkey] at hstep
      rw [← hkey, hrows.find?_tail] at hrest
      rw [if_pos hkey.symm, hrest]
      exact hstep
    · rw [if_neg hkey] at hstep
      rw [hstep] at hrest
      rw [if_neg (Ne.symm hkey)]
      exact hrest

theorem exists_overRows (h : Follows set settings) (hrows : rows.Distinct)
    (hfits : ∀ x ∈ settings, x.Fits rows) (start : σ) : ∃ s, overRows set start rows = .ok s := by
  induction rows generalizing start with
  | nil => exact ⟨start, rfl⟩
  | cons row rows ih =>
    have hrow : ∀ x ∈ settings, row.1 = x.key → ∃ a, x.reader.Reads row.2 a := by
      intro x hx hkey
      exact hfits x hx row.2 (by rw [Rows.find?_cons, if_pos hkey.symm])
    have hrest : ∀ x ∈ settings, x.Fits rows := by
      intro x hx v hv
      refine hfits x hx v ?_
      rw [Rows.find?_cons, if_neg]
      · exact hv
      · intro hkey
        rw [hkey, hrows.find?_tail] at hv
        cases hv
    obtain ⟨next, hnext⟩ := h.total hrows.head hrow start
    obtain ⟨s, hs⟩ := ih hrows.tail hrest next
    exact ⟨s, bind_eq_ok_iff.2 ⟨next, hnext, hs⟩⟩

/-- **A table gives a record by giving each of its settings.** -/
theorem overRows_eq_ok_iff (h : Follows set settings) (hrows : rows.Distinct) :
    overRows set start rows = .ok s ↔ ∀ x ∈ settings, x.Given rows start s := by
  refine ⟨h.given hrows, fun hs => ?_⟩
  obtain ⟨s', hs'⟩ := h.exists_overRows hrows (fun x hx => (hs x hx).fits) start
  rw [hs', Except.ok.injEq]
  exact h.ext s' s fun x hx => (h.given hrows hs' x hx).unique hrows (hs x hx)

theorem exists_overRows_iff (h : Follows set settings) (hrows : rows.Distinct) :
    (∃ s, overRows set start rows = .ok s) ↔ ∀ x ∈ settings, x.Fits rows := by
  refine ⟨fun hs x hx => ?_, fun hfits => h.exists_overRows hrows hfits start⟩
  obtain ⟨s, hs⟩ := hs
  exact (h.given hrows hs x hx).fits

end Follows

/-! ### Records -/

/-- The rows that a record is written in: those of a table, or the elements of an array under the
names in order.  A date or a time of day counts as an empty table. -/
def rowsOf? (names : List String) : Value → Option Rows
  | .table _ rows => some rows
  | .array _ elements => some (names.zip elements)
  | .moment _ => some []
  | _ => none

theorem rowsOf?_distinct {names : List String} {rows : Rows} (hnames : names.Nodup)
    (hv : v.Distinct) (h : rowsOf? names v = some rows) : rows.Distinct := by
  cases v with
  | table kind rows' =>
    cases h
    exact Value.distinct_table_iff.1 hv
  | array isOpen elements =>
    cases h
    refine ⟨?_, fun row hrow => Value.distinct_array_iff.1 hv _ (List.of_mem_zip hrow).2⟩
    rw [List.zip_eq_zip_take_min, List.map_fst_zip (by simp)]
    exact hnames.sublist (List.take_sublist _ _)
  | moment =>
    cases h
    exact .nil
  | _ => cases h

/-- It makes no difference whether a record is written as a table or as an array. -/
theorem group?_eq_ok_iff {α : Type} {shape : Shape} {names : List String}
    {ofRows : Rows → Except Misfit α} {ofElements : List Value → Except Misfit α} {a : α}
    (h : ∀ elements, ofElements elements = .ok a ↔ ofRows (names.zip elements) = .ok a) :
    group? shape ofRows ofElements v = .ok a ↔
      ∃ rows, rowsOf? names v = some rows ∧ ofRows rows = .ok a := by
  cases v <;> simp [group?, rowsOf?, h]

/-- Records that are written as their settings. -/
def Follows.reader {σ : Type} {set : σ → String → Value → Except Misfit σ}
    {settings : List (Setting σ)} (h : Follows set settings) (shape : Shape) (start : σ) :
    Reader σ where
  Reads v s := ∃ rows, rowsOf? (settings.map Setting.key) v = some rows ∧
    ∀ x ∈ settings, x.Given rows start s
  read := group? shape (overRows set start) (overNames set start (settings.map Setting.key))
  read_eq_ok_iff := by
    intro v s hv
    have helements : ∀ elements, overNames set start (settings.map Setting.key) elements = .ok s ↔
        overRows set start ((settings.map Setting.key).zip elements) = .ok s := fun _ => Iff.rfl
    rw [group?_eq_ok_iff helements]
    refine exists_congr fun rows => and_congr_right fun hrows => ?_
    exact h.overRows_eq_ok_iff (rowsOf?_distinct h.nodup hv hrows)

/-- A value is a record if its rows fit. -/
theorem Follows.exists_reads_iff {σ : Type} {set : σ → String → Value → Except Misfit σ}
    {settings : List (Setting σ)} (h : Follows set settings) (shape : Shape) (start : σ)
    (hv : v.Distinct) : (∃ s, (h.reader shape start).Reads v s) ↔
      ∃ rows, rowsOf? (settings.map Setting.key) v = some rows ∧ ∀ x ∈ settings, x.Fits rows := by
  simp only [Follows.reader]
  rw [exists_comm]
  refine exists_congr fun rows => ?_
  rw [exists_and_left]
  refine and_congr_right fun hrows => ?_
  have hdistinct := rowsOf?_distinct h.nodup hv hrows
  simp only [← h.overRows_eq_ok_iff hdistinct]
  exact h.exists_overRows_iff hdistinct

/-! ### Peers -/

/-- The keys of the settings of a peer. -/
def peerKeys : List String := ["name", "reachable"]

/-- A value is a peer: it gives a name, and the peer answers heartbeats unless the value says
otherwise. -/
def IsPeer (v : Value) (p : PeerSettings) : Prop :=
  ∃ rows, rowsOf? peerKeys v = some rows ∧ rows.find? "name" = some (.text p.name) ∧
    match rows.find? "reachable" with
    | some v => IsBoolean v p.reachable
    | none => p.reachable = true

/-- The settings of what is known of a peer. -/
def Setting.ofPeer : List (Setting PeerDraft) := [
  ⟨"name", _, Reader.text.given, (·.name), fun s name => { s with name := name },
    fun _ _ => rfl⟩,
  ⟨"reachable", _, .boolean, (·.reachable), fun s reachable => { s with reachable := reachable },
    fun _ _ => rfl⟩]

theorem setPeer_follows : Follows setPeer Setting.ofPeer where
  set_eq s name v := by
    unfold setPeer
    split_ifs with hname hreachable
    · simp [Setting.ofPeer, hname, Reader.given, Reader.text]
    · simp [Setting.ofPeer, hreachable, Reader.boolean]
    · simp [Setting.ofPeer, hname, hreachable, pure, Except.pure]
  nodup := by decide
  frame := by simp [Setting.ofPeer]
  ext s s' h := by
    obtain ⟨name, reachable⟩ := s
    obtain ⟨name', reachable'⟩ := s'
    simpa [Setting.ofPeer] using h

theorem PeerDraft.complete_eq_ok_iff {draft : PeerDraft} {misfit : Misfit} {p : PeerSettings} :
    draft.complete misfit = .ok p ↔ draft.name = some p.name ∧ draft.reachable = p.reachable := by
  obtain ⟨name, reachable⟩ := draft
  obtain ⟨name', reachable'⟩ := p
  cases name <;> simp [complete]

/-- **A peer is read where a value is one.** -/
theorem peer_eq_ok_iff {p : PeerSettings} (hv : v.Distinct) : peer v = .ok p ↔ IsPeer v p := by
  have helements : ∀ elements,
      (overNames setPeer {} peerKeys elements >>= (·.complete .emptyPeer)) = .ok p ↔
        (overRows setPeer {} (peerKeys.zip elements) >>=
          (·.complete (.missing "name"))) = .ok p := by
    intro elements
    simp only [bind_eq_ok_iff, PeerDraft.complete_eq_ok_iff, overNames]
  refine (group?_eq_ok_iff helements).trans ?_
  refine exists_congr fun rows => and_congr_right fun hrows => ?_
  have hdistinct : rows.Distinct := rowsOf?_distinct (by decide) hv hrows
  simp only [bind_eq_ok_iff, PeerDraft.complete_eq_ok_iff,
    setPeer_follows.overRows_eq_ok_iff hdistinct]
  constructor
  · rintro ⟨draft, hdraft, hname, hreachable⟩
    simp only [Setting.ofPeer, List.forall_mem_cons, Setting.Given] at hdraft
    rw [hname, hreachable] at hdraft
    obtain ⟨hgiven, hanswers, -⟩ := hdraft
    refine ⟨?_, hanswers⟩
    cases hfound : rows.find? "name" with
    | none =>
      rw [hfound] at hgiven
      cases hgiven
    | some v =>
      rw [hfound] at hgiven
      obtain ⟨s, hs, heq⟩ := hgiven
      cases heq
      exact congrArg some hs
  · rintro ⟨hname, hanswers⟩
    refine ⟨⟨some p.name, p.reachable⟩, ?_, rfl, rfl⟩
    simp only [Setting.ofPeer, List.forall_mem_cons, Setting.Given]
    refine ⟨?_, hanswers, List.forall_mem_nil _⟩
    rw [hname]
    exact ⟨p.name, rfl, rfl⟩

/-- Peers. -/
def Reader.peer : Reader PeerSettings := ⟨IsPeer, Decode.peer, peer_eq_ok_iff⟩

/-! ### The settings of the sections -/

/-- The settings of the node. -/
def Setting.ofNode : List (Setting NodeSettings) := [
  ⟨"name", _, .text, (·.name), fun s name => { s with name := name }, fun _ _ => rfl⟩]

/-- The settings of the health loop. -/
def Setting.ofHealth : List (Setting HealthSettings) := [
  ⟨"enabled", _, .boolean, (·.enabled), fun s b => { s with enabled := b }, fun _ _ => rfl⟩,
  ⟨"check_interval_ms", _, .count, (·.checkIntervalMs),
    fun s n => { s with checkIntervalMs := n }, fun _ _ => rfl⟩,
  ⟨"heartbeat_timeout_ms", _, .count, (·.heartbeatTimeoutMs),
    fun s n => { s with heartbeatTimeoutMs := n }, fun _ _ => rfl⟩,
  ⟨"can_offline_server", _, .boolean, (·.canOfflineServer),
    fun s b => { s with canOfflineServer := b }, fun _ _ => rfl⟩]

/-- The settings of the monitoring endpoint. -/
def Setting.ofEndpoint : List (Setting EndpointSettings) := [
  ⟨"enabled", _, .boolean, (·.enabled), fun s b => { s with enabled := b }, fun _ _ => rfl⟩,
  ⟨"listen_addr", _, .text, (·.listenAddress),
    fun s address => { s with listenAddress := address }, fun _ _ => rfl⟩]

/-- The settings of the cluster. -/
def Setting.ofCluster : List (Setting ClusterSettings) := [
  ⟨"databases", _, .list .text, (·.databases),
    fun s databases => { s with databases := databases }, fun _ _ => rfl⟩,
  ⟨"peers", _, .list .peer, (·.peers), fun s peers => { s with peers := peers },
    fun _ _ => rfl⟩]

theorem setNode_follows : Follows setNode Setting.ofNode where
  set_eq s name v := by
    unfold setNode
    split_ifs with hname
    · simp [Setting.ofNode, hname, Reader.text]
    · simp [Setting.ofNode, hname, pure, Except.pure]
  nodup := by decide
  frame := by simp [Setting.ofNode]
  ext s s' h := by
    obtain ⟨name⟩ := s
    obtain ⟨name'⟩ := s'
    simpa [Setting.ofNode] using h

theorem setHealth_follows : Follows setHealth Setting.ofHealth where
  set_eq s name v := by
    unfold setHealth
    split_ifs with henabled hinterval htimeout hoffline
    · simp [Setting.ofHealth, henabled, Reader.boolean]
    · simp [Setting.ofHealth, hinterval, Reader.count]
    · simp [Setting.ofHealth, htimeout, Reader.count]
    · simp [Setting.ofHealth, hoffline, Reader.boolean]
    · simp [Setting.ofHealth, henabled, hinterval, htimeout, hoffline, pure, Except.pure]
  nodup := by decide
  frame := by simp [Setting.ofHealth]
  ext s s' h := by
    obtain ⟨enabled, interval, timeout, canOffline⟩ := s
    obtain ⟨enabled', interval', timeout', canOffline'⟩ := s'
    simpa [Setting.ofHealth] using h

theorem setEndpoint_follows : Follows setEndpoint Setting.ofEndpoint where
  set_eq s name v := by
    unfold setEndpoint
    split_ifs with henabled haddress
    · simp [Setting.ofEndpoint, henabled, Reader.boolean]
    · simp [Setting.ofEndpoint, haddress, Reader.text]
    · simp [Setting.ofEndpoint, henabled, haddress, pure, Except.pure]
  nodup := by decide
  frame := by simp [Setting.ofEndpoint]
  ext s s' h := by
    obtain ⟨enabled, address⟩ := s
    obtain ⟨enabled', address'⟩ := s'
    simpa [Setting.ofEndpoint] using h

theorem setCluster_follows : Follows setCluster Setting.ofCluster where
  set_eq s name v := by
    unfold setCluster
    split_ifs with hdatabases hpeers
    · simp [Setting.ofCluster, hdatabases, Reader.list, Reader.text]
    · simp [Setting.ofCluster, hpeers, Reader.list, Reader.peer]
    · simp [Setting.ofCluster, hdatabases, hpeers, pure, Except.pure]
  nodup := by decide
  frame := by simp [Setting.ofCluster]
  ext s s' h := by
    obtain ⟨databases, peers⟩ := s
    obtain ⟨databases', peers'⟩ := s'
    simpa [Setting.ofCluster] using h

/-! ### Sections -/

namespace Reader

/-- The section of the node. -/
def node : Reader NodeSettings := setNode_follows.reader .nodeSection emptyNode

/-- The section of the health loop. -/
def health : Reader HealthSettings := setHealth_follows.reader .healthSection emptyHealth

/-- The section of the monitoring endpoint. -/
def endpoint : Reader EndpointSettings :=
  setEndpoint_follows.reader .endpointSection emptyEndpoint

/-- The section of the cluster. -/
def cluster : Reader ClusterSettings := setCluster_follows.reader .clusterSection emptyCluster

@[simp] theorem node_read : node.read = Decode.node := rfl
@[simp] theorem health_read : health.read = Decode.health := rfl
@[simp] theorem endpoint_read : endpoint.read = Decode.endpoint := rfl
@[simp] theorem cluster_read : cluster.read = Decode.cluster := rfl

end Reader

/-- The sections of a document. -/
def Setting.sections : List (Setting Settings) := [
  ⟨"node", _, .node, (·.node), fun s node => { s with node := node }, fun _ _ => rfl⟩,
  ⟨"health", _, .health, (·.health), fun s health => { s with health := health },
    fun _ _ => rfl⟩,
  ⟨"metrics", _, .endpoint, (·.endpoint), fun s endpoint => { s with endpoint := endpoint },
    fun _ _ => rfl⟩,
  ⟨"cluster", _, .cluster, (·.cluster), fun s cluster => { s with cluster := cluster },
    fun _ _ => rfl⟩]

theorem setSection_follows : Follows setSection Setting.sections where
  set_eq s name v := by
    unfold setSection
    split_ifs with hnode hhealth hendpoint hcluster
    · simp [Setting.sections, hnode]
    · simp [Setting.sections, hhealth]
    · simp [Setting.sections, hendpoint]
    · simp [Setting.sections, hcluster]
    · simp [Setting.sections, hnode, hhealth, hendpoint, hcluster, pure, Except.pure]
  nodup := by decide
  frame := by simp [Setting.sections]
  ext s s' h := by
    obtain ⟨node, health, endpoint, cluster⟩ := s
    obtain ⟨node', health', endpoint', cluster'⟩ := s'
    simpa [Setting.sections] using h

end Upkeep.Decode
