import Plotting.Proofs.Json.NewMember
import Plotting.Proofs.Json.Spelling
import Plotting.Proofs.Scene.Storage

/-!
# Where the version of a scene is looked at

A contract of another version than the current one is refused (`Scene.parse_contract_of_version`).
But the bare form is tried first, and it has no field for a version, so an object with the members
of a scene is read as that scene whatever else it names (`Scene.parse_pretty_append`).  There is no
other way past the version: `Scene.version_counts_in_contracts_only` says that a text with an
unsupported version is accepted just if it describes a bare scene without it, and tells the refusals
apart.
-/

namespace Plotting

/-- Only a natural number of 32 bits is read as a word. -/
theorem Document.eq_int_of_word? {d : Document} {w : UInt32} (h : d.word? = some w) :
    d = .int w.toNat := by
  unfold word? at h
  split at h
  · next n hn =>
    split at h
    · next hlt =>
      obtain rfl := Option.some.inj h
      rw [UInt32.toNat_ofNat_of_lt' hlt]
      unfold nat? at hn
      split at hn
      · obtain rfl := Option.some.inj hn
        rfl
      · cases hn
    · cases h
  · cases h

/-- The record of an object is its members, if none of the fields is named twice. -/
theorem Document.record?_obj_eq_some_iff {fields : List String} {members r : Document.Record} :
    (Document.obj members).record? fields = some r ↔
      namesOnce fields members = true ∧ members = r := by
  rw [record?]
  exact Option.ite_none_right_eq_some.trans (and_congr_right fun _ => Option.some_inj)

namespace Scene

open Document (Record namesOnce ofJson)

variable {members : Record} {d version : Document} {s : Scene} {v : UInt32}

/-! ## Bare scenes -/

/-- The members of an object that do not name a version. -/
def unversioned (members : Record) : Record :=
  members.filter fun m => m.1 ≠ "schema_version"

/-- A scene depends on the members of its own names only. -/
theorem decode?_filter {p : String → Bool}
    (h : ∀ field ∈ ["traces", "is_3d", "layout"], p field = true) (levels : ℕ) (members : Record) :
    decode? levels (.obj (members.filter fun m => p m.1)) = decode? levels (.obj members) := by
  have hlookup : ∀ field ∈ ["traces", "is_3d", "layout"],
      (members.filter fun m => p m.1).lookup field = members.lookup field :=
    fun field hfield => Record.lookup_filter members (h field hfield)
  simp only [List.forall_mem_cons] at hlookup
  obtain ⟨htraces, hspatial, hlayout, -⟩ := hlookup
  rw [decode?, decode?, Document.record?, Document.record?, Record.namesOnce_filter members h]
  split
  · simp only [Option.bind_eq_bind, Option.bind_some, Record.required, htraces, hspatial, hlayout]
  · rfl

/-- Whether an object is a bare scene, and which, is not for its version to say. -/
theorem decode?_unversioned (levels : ℕ) (members : Record) :
    decode? levels (.obj (unversioned members)) = decode? levels (.obj members) := by
  refine decode?_filter (p := fun k => decide (k ≠ "schema_version")) ?_ levels members
  decide

/-- Members of other names before those of a scene change nothing. -/
theorem decode?_append {others : Record}
    (hothers : ∀ m ∈ others, m.1 ∉ ["traces", "is_3d", "layout"]) (levels : ℕ) (members : Record) :
    decode? levels (.obj (others ++ members)) = decode? levels (.obj members) := by
  have hfields : ∀ field ∈ ["traces", "is_3d", "layout"],
      decide (field ∈ ["traces", "is_3d", "layout"]) = true := fun _ h => decide_eq_true h
  have hnone : (others.filter fun m => decide (m.1 ∈ ["traces", "is_3d", "layout"])) = [] :=
    List.filter_eq_nil_iff.mpr fun m hm => by simpa using hothers m hm
  rw [← decode?_filter hfields, List.filter_append, hnone, List.nil_append, decode?_filter hfields]

/-- A bare scene has all the members of a scene. -/
theorem mem_of_decode? {levels : ℕ} (h : decode? levels (.obj members) = some s) :
    ∀ field ∈ ["traces", "is_3d", "layout"], field ∈ members.map Prod.fst := by
  obtain ⟨r, hr, h⟩ := Option.bind_eq_some_iff.mp h
  obtain ⟨traces, htraces, h⟩ := Option.bind_eq_some_iff.mp h
  obtain ⟨spatial, hspatial, h⟩ := Option.bind_eq_some_iff.mp h
  obtain ⟨layout, hlayout, -⟩ := Option.bind_eq_some_iff.mp h
  obtain ⟨-, rfl⟩ := Document.record?_obj_eq_some_iff.mp hr
  exact List.forall_mem_cons.mpr ⟨Record.mem_of_required htraces,
    List.forall_mem_cons.mpr ⟨Record.mem_of_required hspatial,
      List.forall_mem_singleton.mpr (Record.mem_of_required hlayout)⟩⟩

/-! ## Contracts -/

theorem decodeContract?_eq_some (h : decodeContract? d = some (v, s)) :
    ∃ r, d.record? ["schema_version", "scene"] = some r ∧
      r.required "schema_version" Document.word? = some v ∧
      r.required "scene" (decode? (Document.maxNesting - 1)) = some s := by
  obtain ⟨r, hr, h⟩ := Option.bind_eq_some_iff.mp h
  obtain ⟨w, hw, h⟩ := Option.bind_eq_some_iff.mp h
  obtain ⟨s', hs, h⟩ := Option.bind_eq_some_iff.mp h
  obtain ⟨rfl, rfl⟩ := Prod.mk.inj (Option.some.inj h)
  exact ⟨r, hr, hw, hs⟩

/-- The version of a contract is the only one that its object names. -/
theorem eq_int_of_decodeContract? (hversion : ("schema_version", version) ∈ members)
    (h : decodeContract? (.obj members) = some (v, s)) : version = .int v.toNat := by
  obtain ⟨r, hr, hword, -⟩ := decodeContract?_eq_some h
  obtain ⟨hnames, rfl⟩ := Document.record?_obj_eq_some_iff.mp hr
  have honce : members.countP (fun m => m.1 = "schema_version") ≤ 1 :=
    of_decide_eq_true (List.all_eq_true.mp hnames _ List.mem_cons_self)
  rw [Record.required, Record.lookup_of_mem honce hversion, Option.bind_some] at hword
  exact Document.eq_int_of_word? hword

/-! ## Documents that are no scene of the current version -/

/-- What is no bare scene is refused as a contract of its version, unless that is the current one. -/
theorem ofDocument_of_decodeContract? (hbare : decode? Document.maxNesting d = none)
    (h : decodeContract? d = some (v, s)) (hv : v ≠ schemaVersion) :
    ofDocument d = .error (.data (.schemaVersion v.toNat)) := by
  rw [ofDocument, hbare, h]
  exact if_neg hv

/-- Why an object that is no bare scene is refused: for the version of the contract that it is, or
because it is no contract either. -/
inductive Refusal (members : Record) (version : Document) : PlotError → Prop where
  | ofVersion {v : UInt32} {s : Scene} (hcontract : decodeContract? (.obj members) = some (v, s))
      (hversion : version = .int v.toNat) :
      Refusal members version (.data (.schemaVersion v.toNat))
  | unreadable (hcontract : decodeContract? (.obj members) = none) :
      Refusal members version (.data (.unreadable .scene))

/-- There is one reason at most. -/
theorem Refusal.unique {e e' : PlotError} (h : Refusal members version e)
    (h' : Refusal members version e') : e = e' := by
  cases h with
  | ofVersion hcontract hversion =>
    cases h' with
    | ofVersion hcontract' hversion' =>
      obtain ⟨rfl, -⟩ := Prod.mk.inj (Option.some.inj (hcontract.symm.trans hcontract'))
      rfl
    | unreadable hnone =>
      rw [hcontract] at hnone
      cases hnone
  | unreadable hnone =>
    cases h' with
    | ofVersion hcontract hversion =>
      rw [hcontract] at hnone
      cases hnone
    | unreadable hnone' => rfl

/-- An object that names another version than the current one is a bare scene, or it is refused. -/
theorem ofDocument_cases (hversion : ("schema_version", version) ∈ members)
    (hunsupported : version ≠ .int schemaVersion.toNat) :
    (∃ s, decode? Document.maxNesting (.obj members) = some s ∧
      ofDocument (.obj members) = .ok s) ∨
    (decode? Document.maxNesting (.obj members) = none ∧
      ∃ e, Refusal members version e ∧ ofDocument (.obj members) = .error e) := by
  cases hbare : decode? Document.maxNesting (.obj members) with
  | some s => exact Or.inl ⟨s, rfl, by rw [ofDocument, hbare]⟩
  | none =>
    refine Or.inr ⟨rfl, ?_⟩
    cases hcontract : decodeContract? (.obj members) with
    | none => exact ⟨_, .unreadable hcontract, by rw [ofDocument, hbare, hcontract]⟩
    | some contract =>
      obtain ⟨v, s⟩ := contract
      have hint : version = .int v.toNat := eq_int_of_decodeContract? hversion hcontract
      have hv : v ≠ schemaVersion := by
        rintro rfl
        exact hunsupported hint
      exact ⟨_, .ofVersion hcontract hint, ofDocument_of_decodeContract? hbare hcontract hv⟩

/-- **The version counts in contracts only.**  A text of an object that names another version than
the current one is accepted just if the other members are a bare scene.  Else it is refused for its
version, if it is a contract, or as unreadable; and it is refused wherever one of the members of a
scene is missing. -/
theorem version_counts_in_contracts_only {reader : NumberReader} {text : String}
    (htext : Document.parse? text reader = some (.obj members))
    (hversion : ("schema_version", version) ∈ members)
    (hunsupported : version ≠ .int schemaVersion.toNat) :
    (∀ s, parse text reader = .ok s ↔
      decode? Document.maxNesting (.obj (unversioned members)) = some s) ∧
    (∀ e, parse text reader = .error e ↔
      decode? Document.maxNesting (.obj (unversioned members)) = none ∧
        Refusal members version e) ∧
    (∀ field ∈ ["traces", "is_3d", "layout"], field ∉ members.map Prod.fst →
      ∃ e, parse text reader = .error e) := by
  have hparse : parse text reader = ofDocument (.obj members) := by rw [parse, htext]
  rw [decode?_unversioned, hparse]
  obtain ⟨s, hbare, hok⟩ | ⟨hbare, e, hrefusal, herror⟩ := ofDocument_cases hversion hunsupported
  · rw [hok, hbare]
    refine ⟨fun s' => ?_, fun e => ?_, fun field hfield hmissing => ?_⟩
    · rw [Except.ok.injEq, Option.some.injEq]
    · exact iff_of_false (by rintro ⟨⟩) fun h => Option.some_ne_none s h.1
    · exact absurd (mem_of_decode? hbare field hfield) hmissing
  · rw [herror, hbare]
    refine ⟨fun s => ?_, fun e' => ?_, fun _ _ _ => ⟨e, rfl⟩⟩
    · exact iff_of_false (by rintro ⟨⟩) (Option.some_ne_none s).symm
    · rw [Except.error.injEq]
      constructor
      · rintro rfl
        exact ⟨rfl, hrefusal⟩
      · rintro ⟨-, hrefusal'⟩
        exact hrefusal.unique hrefusal'

/-! ## Written scenes that name a version -/

/-- A bare scene with members of other names before its own is decoded as the scene. -/
theorem decode?_ofJson_append (h : s.IsFinite) {others : List (String × Json)}
    (hothers : ∀ m ∈ others, m.1 ∉ ["traces", "is_3d", "layout"]) :
    decode? Document.maxNesting (ofJson (.obj (others ++ s.members))) = some s := by
  have hbare : decode? Document.maxNesting (ofJson s.toJson) = some s := decode?_toJson h 122
  rw [ofJson, Document.ofMembers_eq_map, List.map_append, decode?_append]
  · rwa [← Document.ofMembers_eq_map]
  · intro m hm
    obtain ⟨n, hn, rfl⟩ := List.mem_map.mp hm
    exact hothers n hn

theorem isPrintable_append {others : List (String × Json)}
    (hothers : Json.MembersPrintable others) (s : Scene) :
    (Json.obj (others ++ s.members)).IsPrintable :=
  (Json.membersPrintable_append _ _).mpr ⟨hothers, s.isPrintable_toJson⟩

/-- So its text is read as the scene, whatever these members are. -/
theorem parse_pretty_append {reader : NumberReader} (h : s.IsFinite)
    {others : List (String × Json)} (hothers : ∀ m ∈ others, m.1 ∉ ["traces", "is_3d", "layout"])
    (hprintable : Json.MembersPrintable others)
    (hkept : reader.KeepsAll (.obj (others ++ s.members))) :
    parse (Json.obj (others ++ s.members)).pretty reader = .ok s := by
  rw [parse, Document.parse?_pretty (isPrintable_append hprintable s) hkept]
  simp only [ofDocument, decode?_ofJson_append h hothers]

theorem membersPrintable_contract (v : UInt32) (s : Scene) :
    Json.MembersPrintable (s.contractMembers v) := by
  simp [contractMembers]

/-- The text of a contract of another version is refused for that version. -/
theorem parse_contract_of_version {reader : NumberReader} (h : s.IsFinite)
    (hv : v ≠ schemaVersion) (hkept : reader.KeepsAll s.toJson) :
    parse (Json.obj (s.contractMembers v)).pretty reader =
      .error (.data (.schemaVersion v.toNat)) := by
  have hprintable : (Json.obj (s.contractMembers v)).IsPrintable := membersPrintable_contract v s
  have hnumbers : reader.KeepsAll (.obj (s.contractMembers v)) := by
    simpa [contractMembers] using hkept
  rw [parse, Document.parse?_pretty hprintable hnumbers]
  exact ofDocument_of_decodeContract? (decode?_contract v s _)
    (decodeContract?_contract_of_isFinite v h) hv

/-- The scene of no elements. -/
def blank : Scene :=
  ofElements [] none {}

theorem isFinite_blank : blank.IsFinite := by
  decide

/-- A contract of a version that there is not, and a bare scene that names this version. -/
theorem version_counts_in_contracts_only_nine :
    let contract := Json.obj (blank.contractMembers 9)
    let bare := Json.obj ([("schema_version", .ofNat 9)] ++ blank.members)
    parse contract.pretty = .error (.data (.schemaVersion 9)) ∧ parse bare.pretty = .ok blank := by
  intro contract bare
  have hnine : Document.int 9 ≠ .int schemaVersion.toNat := by
    rintro ⟨⟩
  have hcontract : contract.IsPrintable := membersPrintable_contract 9 blank
  have hversion : Json.MembersPrintable [("schema_version", .ofNat 9)] :=
    ⟨Json.isPrintable_ofNat_word 9, trivial⟩
  have hbare : bare.IsPrintable := isPrintable_append hversion blank
  have hothers : ∀ m ∈ [("schema_version", Json.ofNat 9)],
      m.1 ∉ ["traces", "is_3d", "layout"] := by
    rw [List.forall_mem_singleton]
    decide
  have hrefusable : Document.parse? contract.pretty = some (ofJson contract) :=
    Document.parse?_pretty hcontract (by decide)
  have hacceptable : Document.parse? bare.pretty = some (ofJson bare) :=
    Document.parse?_pretty hbare (by decide)
  obtain ⟨-, hrefused, -⟩ := version_counts_in_contracts_only hrefusable List.mem_cons_self hnine
  obtain ⟨haccepted, -, -⟩ := version_counts_in_contracts_only hacceptable List.mem_cons_self hnine
  refine ⟨(hrefused _).mpr
      ⟨?_, .ofVersion (decodeContract?_contract_of_isFinite 9 isFinite_blank) rfl⟩,
    (haccepted blank).mpr ?_⟩
  · rw [decode?_unversioned]
    exact decode?_contract 9 blank _
  · rw [decode?_unversioned]
    exact decode?_ofJson_append isFinite_blank hothers

/-- A contract of such a version is accepted if the members of the scene stand beside it too. -/
theorem unsupported_version_accepted :
    ¬ ∀ (text : String) (members : Record) (n : ℤ),
      Document.parse? text = some (.obj members) → ("schema_version", .int n) ∈ members →
        n ≠ schemaVersion.toNat → ∃ e, parse text = .error e := by
  intro hrefused
  have hothers : ∀ m ∈ blank.contractMembers 9, m.1 ∉ ["traces", "is_3d", "layout"] := by
    simp [contractMembers]
  have hprintable := membersPrintable_contract 9 blank
  have hkept : NumberReader.bestEffort.KeepsAll
      (.obj (blank.contractMembers 9 ++ blank.members)) := by
    decide
  have htext := Document.parse?_pretty (isPrintable_append hprintable blank) hkept
  obtain ⟨e, herror⟩ := hrefused _ _ 9 htext List.mem_cons_self (by decide)
  rw [parse_pretty_append isFinite_blank hothers hprintable hkept] at herror
  cases herror

end Scene
end Plotting
