import TraceRing.Proofs.Settings.Builds

/-!
# Overrides

Where the value of a constant comes from (`Settings.Origin`). A variable that is set to a text
overrides the default with what the text denotes, and if it denotes nothing that the constant may
be, the build is refused (`Settings.override_settles`). A variable may also be set to bytes that are
no text. These are overlooked, and the default is generated (`Settings.override_overlooked`).
-/

namespace TraceRing.Settings

variable {env : Environment}

/-! ## Bytes and texts -/

/-- No text is encoded as these bytes. -/
def IsIllegible (bytes : Bytes) : Prop :=
  ∀ text, bytes ≠ Bytes.ofText text

theorem textOf?_eq_some_iff {bytes : Bytes} {text : String} :
    textOf? bytes = some text ↔ bytes = Bytes.ofText text := by
  constructor
  · intro h
    rw [textOf?, String.fromUTF8?] at h
    split at h
    · cases h
      rfl
    · cases h
  · rintro rfl
    exact textOf?_ofText text

theorem textOf?_eq_none_iff {bytes : Bytes} : textOf? bytes = none ↔ IsIllegible bytes := by
  rw [Option.eq_none_iff_forall_ne_some]
  exact forall_congr' fun text => not_congr textOf?_eq_some_iff

/-- Where the value of a constant comes from. A text may denote some values. -/
inductive Origin {α : Type} (env : Environment) (constant : String) (Denotes : String → α → Prop)
    (fallback : α) : α → Prop where
  /-- The variable is not set. -/
  | default (unset : IsSetTo env constant none) : Origin env constant Denotes fallback fallback
  /-- It is set to a text that denotes the value. -/
  | override {text : String} {value : α} (set : IsSetTo env constant (some text))
      (denotes : Denotes text value) : Origin env constant Denotes fallback value
  /-- It is set to bytes that are no text. -/
  | overlooked {bytes : Bytes} (set : env.lookup (variableOf constant) = some bytes)
      (illegible : IsIllegible bytes) : Origin env constant Denotes fallback fallback

/-- What is found in the variable of a constant tells where its value comes from. -/
theorem origin_of_lookup {α : Type} {constant : String} {Denotes : String → α → Prop}
    {fallback value : α}
    (hnone : lookup env (variableOf constant) = none → value = fallback)
    (hsome : ∀ text, lookup env (variableOf constant) = some text → Denotes text value) :
    Origin env constant Denotes fallback value := by
  cases hset : env.lookup (variableOf constant) with
  | none =>
    rw [hnone (by rw [lookup, hset]; rfl)]
    exact .default hset
  | some bytes =>
    have hlookup : lookup env (variableOf constant) = textOf? bytes := by
      rw [lookup, hset]
      rfl
    cases htext : textOf? bytes with
    | none =>
      rw [hnone (hlookup.trans htext)]
      exact .overlooked hset (textOf?_eq_none_iff.mp htext)
    | some text =>
      rw [textOf?_eq_some_iff.mp htext] at hset
      exact .override hset (hsome text (hlookup.trans htext))

theorem lookup_eq_some_iff {constant text : String} :
    lookup env (variableOf constant) = some text ↔ IsSetTo env constant (some text) := by
  rw [lookup, Option.bind_eq_some_iff, IsSetTo, Option.map_some]
  constructor
  · rintro ⟨bytes, hset, htext⟩
    rw [hset, textOf?_eq_some_iff.mp htext]
  · intro hset
    exact ⟨_, hset, textOf?_ofText text⟩

/-! ## Builds -/

/-- A build succeeds if the parameters are read and the name is admitted. -/
theorem configure_eq_ok_iff {v : Values} :
    (configure env).result = .ok v ↔
      (readParameters env parameters).2 = .ok v.numbers ∧
        regionName (lookup env (variableOf nameConstant)) = .ok v.name := by
  rw [configure]
  cases (readParameters env parameters).2 with
  | error r => simp
  | ok numbers =>
    cases regionName (lookup env (variableOf nameConstant)) with
    | error r => simp
    | ok name =>
      simp only [Except.ok.injEq]
      constructor
      · rintro rfl
        exact ⟨rfl, rfl⟩
      · rintro ⟨rfl, rfl⟩
        rfl

/-- Reading succeeds if and only if no variable is set to a text that is refused. -/
theorem exists_readParameters_iff :
    (∃ numbers, (readParameters env parameters).2 = .ok numbers) ↔
      ∀ p ∈ parameters, ∀ text, IsSetTo env p.constant (some text) →
        ∃ n, p.Takes (some text) n := by
  constructor
  · rintro ⟨numbers, hread⟩ p hp text hset
    obtain ⟨hfirsts, hvalues⟩ := readParameters_of_ok hread
    obtain ⟨entry, hmem, rfl⟩ := List.mem_map.mp (hfirsts ▸ hp)
    have hvalue := hvalues entry hmem
    rw [lookup_eq_some_iff.mpr hset] at hvalue
    exact ⟨entry.2, (Parameter.value_eq_ok_iff hp).mp hvalue⟩
  · intro hall
    cases hread : (readParameters env parameters).2 with
    | ok numbers => exact ⟨numbers, rfl⟩
    | error r =>
      -- the parameter that was refused takes its default, or the text that its variable is set to
      obtain ⟨before, p, behind, hps, -, hrefused⟩ := readParameters_of_error hread
      have hp : p ∈ parameters := hps ▸ by simp
      obtain ⟨n, htakes⟩ : ∃ n, p.Takes (lookup env (variableOf p.constant)) n := by
        cases hlookup : lookup env (variableOf p.constant) with
        | none => exact ⟨p.default, rfl⟩
        | some text => exact hall p hp text (lookup_eq_some_iff.mp hlookup)
      rw [(Parameter.value_eq_ok_iff hp).mpr htakes] at hrefused
      cases hrefused

/-- The region has a name if and only if its variable is not set to a text that is none. -/
theorem exists_regionName_iff :
    (∃ name, regionName (lookup env (variableOf nameConstant)) = .ok name) ↔
      ∀ text, IsSetTo env nameConstant (some text) → IsRegionName text := by
  simp only [regionName_eq_ok_iff, exists_eq_left]
  cases hlookup : lookup env (variableOf nameConstant) with
  | none =>
    refine iff_of_true isRegionName_defaultName fun text hset => ?_
    rw [lookup_eq_some_iff.mpr hset] at hlookup
    cases hlookup
  | some name =>
    constructor
    · intro hvalid text hset
      rw [lookup_eq_some_iff.mpr hset] at hlookup
      cases hlookup
      exact hvalid
    · intro hall
      exact hall name (lookup_eq_some_iff.mp hlookup)

theorem exists_configure_iff :
    (∃ v, (configure env).result = .ok v) ↔
      (∃ numbers, (readParameters env parameters).2 = .ok numbers) ∧
        ∃ name, regionName (lookup env (variableOf nameConstant)) = .ok name := by
  constructor
  · rintro ⟨v, hv⟩
    obtain ⟨hread, hregion⟩ := configure_eq_ok_iff.mp hv
    exact ⟨⟨_, hread⟩, _, hregion⟩
  · rintro ⟨⟨numbers, hread⟩, name, hregion⟩
    exact ⟨⟨numbers, name⟩, configure_eq_ok_iff.mpr ⟨hread, hregion⟩⟩

/-! ## Origins -/

/-- A parameter that is read has a number of its own origin. -/
theorem origin_of_value {p : Parameter} (hp : p ∈ parameters) {n : Nat}
    (h : p.value (lookup env (variableOf p.constant)) = .ok n) :
    Origin env p.constant (fun text n => Denotes text n ∧ p.Admits n) p.default n := by
  rw [Parameter.value_eq_ok_iff hp] at h
  refine origin_of_lookup (fun hnone => ?_) (fun text hsome => ?_)
  · rwa [hnone] at h
  · rwa [hsome] at h

/-- So has the name of the region. -/
theorem origin_of_regionName {name : String}
    (h : regionName (lookup env (variableOf nameConstant)) = .ok name) :
    Origin env nameConstant (fun text name => name = text ∧ IsRegionName text) defaultName
      name := by
  obtain ⟨hname, hvalid⟩ := regionName_eq_ok_iff.mp h
  refine origin_of_lookup (fun hnone => ?_) (fun text hsome => ?_)
  · rw [hname, hnone]
    rfl
  · have htext : name = text := by
      rw [hname, hsome]
      rfl
    exact ⟨htext, htext ▸ hvalid⟩

/-- What a build makes of its variables, whatever bytes they are set to. It succeeds if and only if
every variable that is set to a text denotes a value that its constant may have, and then each
constant is defined as that value. A default is generated for a variable that is not set, and for
one that is set to bytes that are no text. -/
theorem override_settles (env : Environment) :
    ((∃ v, (configure env).result = .ok v) ↔
      (∀ p ∈ parameters, ∀ text, IsSetTo env p.constant (some text) →
        ∃ n, Denotes text n ∧ p.Admits n) ∧
      ∀ text, IsSetTo env nameConstant (some text) → IsRegionName text) ∧
    ∀ v, (configure env).result = .ok v →
      v.numbers.map Prod.fst = parameters ∧
      (∀ entry ∈ v.numbers, Origin env entry.1.constant
        (fun text n => Denotes text n ∧ entry.1.Admits n) entry.1.default entry.2) ∧
      Origin env nameConstant (fun text name => name = text ∧ IsRegionName text) defaultName
        v.name ∧
      ∃ text, (configure env).written? = some text ∧
        definitions text.toList =
          v.numbers.map (fun entry =>
            (definition entry.1.constant entry.1.type (toString entry.2)).toList) ++
          [(definition nameConstant "&str" (Text.quoted v.name)).toList] := by
  constructor
  · rw [exists_configure_iff, exists_readParameters_iff, exists_regionName_iff]
    rfl
  · intro v hv
    obtain ⟨hread, hregion⟩ := configure_eq_ok_iff.mp hv
    obtain ⟨hfirsts, hvalues⟩ := readParameters_of_ok hread
    have hentry : ∀ entry ∈ v.numbers, entry.1 ∈ parameters := fun entry hmem =>
      hfirsts ▸ List.mem_map_of_mem hmem
    have hwritten : (configure env).written? = some v.render := by
      rw [Build.written?, hv]
      rfl
    -- no name and no type breaks a line, so the definitions can be read off the text
    have hlines : ∀ p ∈ parameters, IsLine p.constant.toList ∧ IsLine p.type.toList := by decide
    exact ⟨hfirsts, fun entry hmem => origin_of_value (hentry entry hmem) (hvalues entry hmem),
      origin_of_regionName hregion, _, hwritten,
      definitions_render fun entry hmem => hlines entry.1 (hentry entry hmem)⟩

/-- Two variables that are set to bytes of no text: a number and one byte more, and a single
byte. -/
def garbled : Environment :=
  [("CTF_PACKET_SIZE", [0x31, 0x36, 0xff]), ("CTF_SMEM_NAME", [0xff])]

/-- An override may be overlooked: with these two variables set to bytes that denote nothing, the
build succeeds, and it is the build of an environment in which nothing is set. -/
theorem override_overlooked :
    garbled.lookup (variableOf "PACKET_SIZE") = some [0x31, 0x36, 0xff] ∧
    IsIllegible [0x31, 0x36, 0xff] ∧
    garbled.lookup (variableOf nameConstant) = some [0xff] ∧ IsIllegible [0xff] ∧
    (configure garbled).result =
      .ok ⟨parameters.map fun p => (p, p.default), defaultName⟩ ∧
    (configure garbled).result = (configure []).result ∧
    (configure garbled).written? = (configure []).written? := by
  have hnumber : IsIllegible [0x31, 0x36, 0xff] := textOf?_eq_none_iff.mp (by decide +kernel)
  have hname : IsIllegible [0xff] := textOf?_eq_none_iff.mp (by decide +kernel)
  have hdefaults : ∀ env, (readParameters env parameters).2 =
        .ok (parameters.map fun p => (p, p.default)) →
      lookup env (variableOf nameConstant) = none →
      (configure env).result = .ok ⟨parameters.map fun p => (p, p.default), defaultName⟩ := by
    intro env hread hlookup
    refine configure_eq_ok_iff.mpr ⟨hread, ?_⟩
    rw [hlookup]
    exact regionName_eq_ok_iff.mpr ⟨rfl, isRegionName_defaultName⟩
  have hgarbled := hdefaults garbled (by decide +kernel) (by decide +kernel)
  have hnothing := hdefaults [] (by decide +kernel) rfl
  have hsame : (configure garbled).result = (configure []).result := hgarbled.trans hnothing.symm
  refine ⟨by decide +kernel, hnumber, by decide +kernel, hname, hgarbled, hsame, ?_⟩
  rw [Build.written?, Build.written?, hsame]

end TraceRing.Settings
