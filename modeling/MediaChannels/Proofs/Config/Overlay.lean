import MediaChannels.Proofs.Config.RoundTrip

/-!
# Partial configurations

A document need not give every setting. Those that it gives have the values that it gives them, and the others are as in
the configuration of an empty document. So it does not matter in which order and in which form settings are given: by
headers, by dotted keys, in inline tables, or as items of arrays.

* `Config.Gives`: the value that a text gives to a setting, whatever its form.
* `seen_fieldsOf`: the settings in a table, in an array and in an array of tables.
* `Collects.of_setting`, `Collects.overlay`: reading a group inside a group, and the settings of a group.
* `HostConfig.overlay_of_ofText`: an accepted configuration is the default one, overlaid with what its text gives.
-/

namespace MediaChannels

open Toml (Value Entries Address Mark Document)

namespace Config

/-! ## Settings and their forms -/

/-- The settings of the group at a path, in the order in which arrays give them. -/
def namesAt : List String → List String
  | ["segment"] => segmentNames
  | ["stream"] => streamNames
  | ["stream", "audio"] => audioNames
  | ["stream", "video"] => videoNames
  | _ => []

theorem nodup_namesAt (group : List String) : (namesAt group).Nodup := by
  unfold namesAt
  split <;> decide

/-- Whether an address leads to the setting that some names lead to, from the group at `group`. A key is a name, and an
item of an array stands for the name in its place. -/
def LeadsTo (group : List String) : Address → List String → Prop
  | [], [] => True
  | .key key :: rest, name :: path => key = name ∧ LeadsTo (group ++ [name]) rest path
  | .item index :: rest, name :: path => (namesAt group)[index]? = some name ∧ LeadsTo (group ++ [name]) rest path
  | _, _ => False

/-- A text gives a value to the setting at a path. -/
def Gives (text : String) (path : List String) (w : Value) : Prop :=
  ∃ d, Document.ofText? text.toList = some d ∧ ∃ address, LeadsTo [] address path ∧ Toml.Binds d.bindings address w

/-- The paths of all settings. -/
def settingPaths : List (List String) :=
  hostScalarNames.map (fun name => [name]) ++ segmentNames.map (fun name => ["segment", name]) ++
    streamNumberNames.map (fun name => ["stream", name]) ++ audioNames.map (fun name => ["stream", "audio", name]) ++
    videoNames.map (fun name => ["stream", "video", name])

end Config

/-- The value of the setting at a path, if it has one. -/
def HostConfig.setting? (c : HostConfig) : List String → Option Value
  | [name] => c.entries.lookup name
  | ["segment", name] => c.segment.entries.lookup name
  | ["stream", name] => c.stream.entries.lookup name
  | ["stream", "audio", name] => c.stream.audio.entries.lookup name
  | ["stream", "video", name] => c.stream.video.entries.lookup name
  | _ => none

namespace Config

variable {names group path : List String} {name : String} {v : Value} {given es : Entries} {rest : Address}
  {mark : Mark}

/-! ## What is given to a group -/

theorem lookup_zip_eq_some_iff {items : List Value} (h : names.Nodup) :
    (names.zip items).lookup name = some v ↔ ∃ index : Nat, names[index]? = some name ∧ items[index]? = some v := by
  induction names generalizing items with
  | nil => simp
  | cons first names ih =>
    rw [List.nodup_cons] at h
    cases items with
    | nil => simp
    | cons item items =>
      rw [List.zip_cons_cons, List.lookup_cons]
      by_cases heq : name = first
      · subst heq
        rw [beq_self_eq_true]
        constructor
        · intro hv
          exact ⟨0, rfl, hv⟩
        · rintro ⟨index | index, hname, hitem⟩
          · exact hitem
          · have hmem : name ∈ names := List.mem_of_getElem? hname
            exact absurd hmem h.1
      · rw [beq_false_of_ne heq]
        constructor
        · intro hv
          obtain ⟨index, hindex⟩ := (ih h.2).1 hv
          exact ⟨index + 1, hindex⟩
        · rintro ⟨index | index, hname, hitem⟩
          · exact absurd (Option.some.inj hname).symm heq
          · exact (ih h.2).2 ⟨index, hname, hitem⟩

/-- In the items of an array, a setting is seen where its place is. -/
theorem seen_zip {items : List Value} (h : names.Nodup) :
    Entries.seen (names.zip items) (.key name :: rest) = some mark ↔
      ∃ index, names[index]? = some name ∧ (Value.array items).seen (.item index :: rest) = some mark := by
  rw [Entries.seen_key, Option.bind_eq_some_iff]
  constructor
  · rintro ⟨v, hv, hmark⟩
    obtain ⟨index, hname, hitem⟩ := (lookup_zip_eq_some_iff h).1 hv
    exact ⟨index, hname, Option.bind_eq_some_iff.2 ⟨v, hitem, hmark⟩⟩
  · rintro ⟨index, hname, hseen⟩
    obtain ⟨v, hitem, hmark⟩ := Option.bind_eq_some_iff.1 hseen
    exact ⟨v, (lookup_zip_eq_some_iff h).2 ⟨index, hname, hitem⟩, hmark⟩

/-- The elements of an array of tables are seen as the tables that they are. -/
theorem seen_elements (elements : List Entries) (index : Nat) (rest : Address) :
    (Value.array (elements.map (Value.table .header))).seen (.item index :: rest) =
      (Value.tables elements).seen (.item index :: rest) := by
  rw [Value.seen, Value.child?, List.getElem?_map, Option.bind_map, Value.seen_tables_item]
  exact Option.bind_congr fun es _ => Value.seen_table .header es rest

/-- The settings of a group, by their names or by their places. -/
theorem seen_fieldsOf (hnames : names.Nodup) (h : fieldsOf names v = some given) :
    given.seen (.key name :: rest) = some mark ↔
      v.seen (.key name :: rest) = some mark ∨
        ∃ index, names[index]? = some name ∧ v.seen (.item index :: rest) = some mark := by
  unfold fieldsOf at h
  split at h
  · cases h
    simp
  · cases h
    rw [seen_zip hnames]
    exact (or_iff_right nofun).symm
  · cases h
    rw [seen_zip hnames]
    simp only [seen_elements]
    exact (or_iff_right nofun).symm
  · cases h
    rw [Entries.seen_empty]
    constructor
    · intro h
      cases h
    · rintro (h | ⟨index, -, h⟩) <;> cases h
  · cases h

/-- What the group at a path, of which the value is `v`, is given at a path inside it. -/
def GivenIn (group : List String) (v : Value) (path : List String) (mark : Mark) : Prop :=
  ∃ address, LeadsTo group address path ∧ v.seen address = some mark

theorem givenIn_nil : GivenIn group v [] mark ↔ v.mark? = some mark := by
  constructor
  · rintro ⟨address, hleads, hseen⟩
    cases address with
    | nil => exact hseen
    | cons step rest => cases step <;> cases hleads
  · intro hmark
    exact ⟨[], trivial, hmark⟩

theorem givenIn_cons (h : fieldsOf (namesAt group) v = some given) :
    GivenIn group v (name :: path) mark ↔
      ∃ w, given.lookup name = some w ∧ GivenIn (group ++ [name]) w path mark := by
  have hseen (rest : Address) : given.seen (.key name :: rest) = some mark ↔ _ := seen_fieldsOf (nodup_namesAt group) h
  constructor
  · rintro ⟨address, hleads, hmark⟩
    cases address with
    | nil => cases hleads
    | cons step rest =>
      have hgiven : given.seen (.key name :: rest) = some mark := by
        rw [hseen]
        cases step with
        | key key =>
          obtain ⟨rfl, -⟩ := hleads
          exact .inl hmark
        | item index => exact .inr ⟨index, hleads.1, hmark⟩
      have hrest : LeadsTo (group ++ [name]) rest path := by
        cases step with
        | key key => exact hleads.2
        | item index => exact hleads.2
      obtain ⟨w, hw, hmark⟩ := Option.bind_eq_some_iff.1 hgiven
      exact ⟨w, hw, rest, hrest, hmark⟩
  · rintro ⟨w, hw, rest, hrest, hmark⟩
    have hgiven : given.seen (.key name :: rest) = some mark := Option.bind_eq_some_iff.2 ⟨w, hw, hmark⟩
    rcases (hseen rest).1 hgiven with hkey | ⟨index, hname, hitem⟩
    · exact ⟨.key name :: rest, ⟨rfl, hrest⟩, hkey⟩
    · exact ⟨.item index :: rest, ⟨hname, hrest⟩, hitem⟩

/-- A table is what a document's table gives to the group at a path. -/
def Collects (es : Entries) (group : List String) (given : Entries) : Prop :=
  ∀ name path mark, GivenIn [] (.table .header es) (group ++ name :: path) mark ↔
    ∃ w, given.lookup name = some w ∧ GivenIn (group ++ [name]) w path mark

theorem collects_root (es : Entries) : Collects es [] es := fun _ _ _ => givenIn_cons rfl

/-- A group inside a group is read from what it is given, which is nothing if it is not there. -/
theorem Collects.of_setting {α : Type} {read : Value → Option α} {default s : α} (P : Entries → α → Prop)
    (h : Collects es group given) (hs : setting read default given name = some s)
    (hread : ∀ v s, read v = some s → ∃ inner, fieldsOf (namesAt (group ++ [name])) v = some inner ∧ P inner s)
    (hdefault : P [] default) : ∃ inner, Collects es (group ++ [name]) inner ∧ P inner s := by
  have hpath (first : String) (path : List String) (mark : Mark) :
      GivenIn [] (.table .header es) (group ++ [name] ++ first :: path) mark ↔
        ∃ w, given.lookup name = some w ∧ GivenIn (group ++ [name]) w (first :: path) mark := by
    rw [List.append_assoc]
    exact h name (first :: path) mark
  rcases setting_eq_some_iff.1 hs with ⟨hnone, rfl⟩ | ⟨v, hv, hv'⟩
  · refine ⟨[], fun first path mark => ?_, hdefault⟩
    rw [hpath, hnone]
    simp
  · obtain ⟨inner, hinner, hP⟩ := hread v s hv'
    refine ⟨inner, fun first path mark => ?_, hP⟩
    rw [hpath, hv, ← givenIn_cons hinner]
    simp

/-- The settings in a table are all scalars. -/
def ScalarsAt (names : List String) (es : Entries) : Prop :=
  ∀ name ∈ names, ∀ v, es.lookup name = some v → v.mark? = some (.scalar v)

/-- A setting has the value that is given, or else the default. -/
theorem Collects.overlay {default result : Entries} (h : Collects es group given)
    (hover : Overlays names given default result) (hscalars : ScalarsAt names result) (hname : name ∈ names) :
    (∀ w, GivenIn [] (.table .header es) (group ++ [name]) (.scalar w) → result.lookup name = some w) ∧
      ((∀ w, ¬GivenIn [] (.table .header es) (group ++ [name]) (.scalar w)) →
        result.lookup name = default.lookup name) := by
  have hresult := hover name hname
  cases hv : given.lookup name with
  | none =>
    rw [hv, Option.none_or] at hresult
    refine ⟨fun w hw => ?_, fun _ => hresult⟩
    obtain ⟨v, hv', -⟩ := (h name [] _).1 hw
    rw [hv] at hv'
    cases hv'
  | some v =>
    rw [hv, Option.some_or] at hresult
    have hmark := hscalars name hname v hresult
    constructor
    · intro w hw
      obtain ⟨v', hv', hw⟩ := (h name [] _).1 hw
      rw [hv] at hv'
      cases hv'
      rw [givenIn_nil, hmark] at hw
      cases hw
      exact hresult
    · intro hnot
      exact absurd ((h name [] _).2 ⟨v, hv, givenIn_nil.2 hmark⟩) (hnot v)

/-! ## All settings -/

theorem forall_settingPaths {P : List String → Prop} :
    (∀ path ∈ settingPaths, P path) ↔
      (∀ name ∈ hostScalarNames, P [name]) ∧ (∀ name ∈ segmentNames, P ["segment", name]) ∧
        (∀ name ∈ streamNumberNames, P ["stream", name]) ∧ (∀ name ∈ audioNames, P ["stream", "audio", name]) ∧
        ∀ name ∈ videoNames, P ["stream", "video", name] := by
  simp only [settingPaths, List.forall_mem_append, List.forall_mem_map, and_assoc]

/-- It is enough that every entry with one of the names is a scalar. -/
theorem scalarsAt_of_mem (h : ∀ e ∈ es, e.1 ∈ names → e.2.mark? = some (.scalar e.2)) : ScalarsAt names es := by
  intro name hname v hv
  obtain ⟨before, after, rfl, -⟩ := List.lookup_eq_some_iff.1 hv
  exact h (name, v) (List.mem_append_right _ List.mem_cons_self) hname

theorem scalars_segment (s : SegmentSettings) : ScalarsAt segmentNames s.entries :=
  scalarsAt_of_mem (by simp [SegmentSettings.entries, Value.mark?])

theorem scalars_audio (s : AudioSettings) : ScalarsAt audioNames s.entries :=
  scalarsAt_of_mem (by simp [AudioSettings.entries, Value.mark?])

theorem scalars_video (s : VideoSettings) : ScalarsAt videoNames s.entries :=
  scalarsAt_of_mem (by simp [VideoSettings.entries, Value.mark?])

theorem scalars_stream (s : StreamSettings) : ScalarsAt streamNumberNames s.entries := by
  apply scalarsAt_of_mem
  rw [StreamSettings.entries]
  cases s.keyMap <;> simp [streamNumberNames, Value.mark?]

theorem scalars_host (c : HostConfig) : ScalarsAt hostScalarNames c.entries := by
  apply scalarsAt_of_mem
  rw [HostConfig.entries]
  cases c.logFile <;> simp [hostScalarNames, Value.mark?]

/-- A configuration that is read from a table has what the table gives, and the defaults. -/
theorem overlay_of_host? {c : HostConfig} (h : host? es = some c) :
    ∀ path ∈ settingPaths,
      (∀ w, GivenIn [] (.table .header es) path (.scalar w) → c.setting? path = some w) ∧
        ((∀ w, ¬GivenIn [] (.table .header es) path (.scalar w)) →
          c.setting? path = ({} : HostConfig).setting? path) := by
  obtain ⟨hhost, hsegment, hstream⟩ := host?_eq_some_iff.1 h
  have root := collects_root es
  obtain ⟨inSegment, segment, hsegment⟩ := root.of_setting
    (fun given (s : SegmentSettings) => Overlays segmentNames given ({} : SegmentSettings).entries s.entries) hsegment
    (fun _ _ hv => (segment?_eq_some_iff.1 hv).imp fun _ hgiven => ⟨hgiven.1, hgiven.2.1⟩) (overlays_nil _)
  obtain ⟨inStream, stream, hnumbers, haudio, hvideo⟩ := root.of_setting
    (fun given (s : StreamSettings) => Overlays streamNumberNames given ({} : StreamSettings).entries s.entries ∧
      setting audio? {} given "audio" = some s.audio ∧ setting video? {} given "video" = some s.video) hstream
    (fun _ _ hv => stream?_eq_some_iff.1 hv) ⟨overlays_nil _, rfl, rfl⟩
  obtain ⟨inAudio, audio, haudio⟩ := stream.of_setting
    (fun given (s : AudioSettings) => Overlays audioNames given ({} : AudioSettings).entries s.entries) haudio
    (fun _ _ hv => audio?_eq_some_iff.1 hv) (overlays_nil _)
  obtain ⟨inVideo, video, hvideo⟩ := stream.of_setting
    (fun given (s : VideoSettings) => Overlays videoNames given ({} : VideoSettings).entries s.entries) hvideo
    (fun _ _ hv => video?_eq_some_iff.1 hv) (overlays_nil _)
  rw [forall_settingPaths]
  refine ⟨fun name hname => ?_, fun name hname => ?_, fun name hname => ?_, fun name hname => ?_, fun name hname => ?_⟩
  · exact root.overlay hhost (scalars_host c) hname
  · exact segment.overlay hsegment (scalars_segment c.segment) hname
  · exact stream.overlay hnumbers (scalars_stream c.stream) hname
  · exact audio.overlay haudio (scalars_audio c.stream.audio) hname
  · exact video.overlay hvideo (scalars_video c.stream.video) hname

/-- Two configurations with the same settings are the same. -/
theorem eq_of_setting? {c c' : HostConfig} (hc : c.segment.Fits) (hc' : c'.segment.Fits)
    (h : ∀ path ∈ settingPaths, c.setting? path = c'.setting? path) : c = c' := by
  obtain ⟨hhost, hsegment, hstream, haudio, hvideo⟩ := forall_settingPaths.1 h
  have hread : host? c'.entries = some c := host?_of_overlays hc
    (fun name hname => (hhost name hname).trans (overlays_host c' name hname))
    (fun name hname => (hsegment name hname).trans (overlays_segment _ name hname))
    (fun name hname => (hstream name hname).trans (overlays_stream _ name hname))
    (fun name hname => (haudio name hname).trans (overlays_audio _ name hname))
    (fun name hname => (hvideo name hname).trans (overlays_video _ name hname))
  exact Option.some.inj (hread.symm.trans (host?_entries hc'))

/-- What a text gives is what its table has. -/
theorem gives_iff {text : String} {d : Document} {w : Value} (hd : Document.ofText? text.toList = some d)
    (hes : d.entries? = some es) : Gives text path w ↔ GivenIn [] (.table .header es) path (.scalar w) := by
  have hseen (address : Address) := Document.entries?_seen_iff hes (Document.ofText?_written hd) address w
  constructor
  · rintro ⟨d', hd', address, hleads, hbinds⟩
    cases hd.symm.trans hd'
    exact ⟨address, hleads, (hseen address).2 hbinds⟩
  · rintro ⟨address, hleads, hw⟩
    exact ⟨d, hd, address, hleads, (hseen address).1 hw⟩

end Config

namespace HostConfig

open Config

/-- An accepted configuration has the settings that its text gives, and those of the default configuration. -/
theorem setting?_of_ofText {text : String} {c : HostConfig} (h : ofText text = .ok c) :
    ∀ path ∈ settingPaths,
      (∀ w, Gives text path w → c.setting? path = some w) ∧
        ((∀ w, ¬Gives text path w) → c.setting? path = ({} : HostConfig).setting? path) := by
  obtain ⟨d, es, hd, hes, hc, -⟩ := ofText_eq_ok_iff.1 h
  simp only [gives_iff hd hes]
  exact overlay_of_host? hc

/-- **An accepted configuration is the default one, overlaid with what its text gives.** Every setting that the text
gives, at any depth and in any form, has the value that is given; every other has its default. Texts that give the same
settings are read as the same configuration. -/
theorem overlay_of_ofText {text : String} {c : HostConfig} (h : ofText text = .ok c) :
    (∀ path ∈ settingPaths,
      (∀ w, Gives text path w → c.setting? path = some w) ∧
        ((∀ w, ¬Gives text path w) → c.setting? path = ({} : HostConfig).setting? path)) ∧
      ∀ text' c', ofText text' = .ok c' →
        (∀ path ∈ settingPaths, ∀ w, Gives text path w ↔ Gives text' path w) → c = c' := by
  have hsettings := setting?_of_ofText h
  refine ⟨hsettings, fun text' c' h' hsame => ?_⟩
  have hsettings' := setting?_of_ofText h'
  have hfits := fits_of_valid (sizes_valid_of_validate (validate_of_ofText h))
  have hfits' := fits_of_valid (sizes_valid_of_validate (validate_of_ofText h'))
  refine eq_of_setting? hfits hfits' fun path hpath => ?_
  by_cases hgiven : ∃ w, Gives text path w
  · obtain ⟨w, hw⟩ := hgiven
    rw [(hsettings path hpath).1 w hw, (hsettings' path hpath).1 w ((hsame path hpath w).1 hw)]
  · have hnone : ∀ w, ¬Gives text path w := not_exists.1 hgiven
    have hnone' : ∀ w, ¬Gives text' path w := fun w hw => hnone w ((hsame path hpath w).2 hw)
    rw [(hsettings path hpath).2 hnone, (hsettings' path hpath).2 hnone']

theorem overlay_of_ofText_forms :
    let path := ["stream", "audio", "packet_duration"]
    let c : HostConfig := { stream := { audio := { packetDuration := 9 } } }
    (ofText "stream = [[9]]" = .ok c ∧ Gives "stream = [[9]]" path (.integer 9) ∧ c.setting? path = some (.integer 9)) ∧
      (∀ path w, Gives "stream.gcmap = 1" path w ↔ Gives "[stream]\ngcmap = 1" path w) ∧
      ofText "stream.gcmap = 1" = .ok { stream := { keyMap := some 1 } } ∧
      ∀ c, ofText "[stream]\ngcmap = 1" = .ok c → { stream := { keyMap := some 1 } } = c := by
  intro path c
  have harray : Document.ofText? "stream = [[9]]".toList = some ⟨[⟨["stream"], .array [.array [.integer 9]]⟩], []⟩ := by
    cbv
  have hdotted : Document.ofText? "stream.gcmap = 1".toList = some ⟨[⟨["stream", "gcmap"], .integer 1⟩], []⟩ := by cbv
  have hheader : Document.ofText? "[stream]\ngcmap = 1".toList =
      some ⟨[], [⟨⟨["stream"], false⟩, [⟨["gcmap"], .integer 1⟩]⟩]⟩ := by cbv
  have hc : ofText "stream = [[9]]" = .ok c := ofText_eq_ok_iff.2 ⟨_, _, harray, rfl, rfl, validate_default⟩
  have hmap : ofText "stream.gcmap = 1" = .ok { stream := { keyMap := some 1 } } :=
    ofText_eq_ok_iff.2 ⟨_, _, hdotted, rfl, rfl, validate_default⟩
  have hgives : Gives "stream = [[9]]" path (.integer 9) :=
    ⟨_, harray, [.key "stream", .item 0, .item 0], ⟨rfl, rfl, rfl, trivial⟩, _, List.mem_singleton_self _,
      [.item 0, .item 0], rfl, rfl⟩
  have hsame : ∀ path w, Gives "stream.gcmap = 1" path w ↔ Gives "[stream]\ngcmap = 1" path w := by
    intro path w
    simp only [Gives, hdotted, hheader, Option.some_inj, exists_eq_left']
    rfl
  exact ⟨⟨hc, hgives, ((overlay_of_ofText hc).1 path (by decide)).1 _ hgives⟩, hsame, hmap,
    fun c' h' => (overlay_of_ofText hmap).2 _ c' h' fun path _ w => hsame path w⟩

end HostConfig

end MediaChannels
