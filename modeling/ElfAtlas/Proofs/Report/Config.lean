import ElfAtlas.Report.Config
import ElfAtlas.Proofs.Json.RoundTrip
import ElfAtlas.Proofs.Reader

/-!
Settings survive being written: what is read back from their text is the same settings, or the fault of
the first rule that they break. No text reads as settings that break a rule.
-/

namespace ElfAtlas

namespace Json

/-! ### Fields -/

/-- An object is read as a record when no key is repeated. -/
theorem fields?_object {members : List (String × Json)} (h : (members.map (·.1)).Nodup)
    (names : List String) : fields? names (object members) = some members := by
  have hrepeated (name : String) : isRepeated members name = false := by
    have hcount := List.nodup_iff_count.1 h name
    rw [List.count, List.countP_map, List.countP_eq_length_filter] at hcount
    exact decide_eq_false (Nat.not_lt.2 hcount)
  simp [fields?, hrepeated]

section

variable {α : Type} {read : Json → Option α} {default : α} {rest : List (String × Json)}
  {name key : String} {j : Json}

@[simp] theorem field_cons_self : field ((name, j) :: rest) name read default = read j := by
  rw [field, List.lookup_cons_self]

theorem field_cons_of_ne (h : name ≠ key) :
    field ((key, j) :: rest) name read default = field rest name read default := by
  have : (name == key) = false := beq_false_of_ne h
  rw [field, List.lookup_cons, this]
  rfl

end

theorem nullable_option {α : Type} {read : Json → Option α} {write : α → Json}
    (hread : ∀ a, read (write a) = some a) (hnull : ∀ a, write a ≠ null) (o : Option α) :
    nullable read (option write o) = some o := by
  cases o with
  | none => rfl
  | some a =>
    rw [option, nullable, hread]
    · rfl
    · exact hnull a

@[simp] theorem word64?_word64 (n : UInt64) : word64? (word64 n) = some n := by
  have := n.toNat_lt
  simp [word64?, word64, word?, nat?_nat, Option.filter, this]

@[simp] theorem nullable_option_word64 (o : Option UInt64) :
    nullable word64? (option word64 o) = some o :=
  nullable_option word64?_word64 (fun _ => nofun) o

@[simp] theorem isWritable_word64 (n : UInt64) : (word64 n).IsWritable := isWritable_nat n.toNat

theorem isWritable_option {α : Type} {write : α → Json} (h : ∀ a, (write a).IsWritable)
    (o : Option α) : (option write o).IsWritable := by
  cases o with
  | none => exact .null
  | some a => exact h a

end Json

/-! ### The parts of the settings -/

@[simp] theorem Architecture.ofJson?_toJson (a : Architecture) : ofJson? a.toJson = some a := by
  cases a <;> rfl

theorem Architecture.isWritable_toJson (a : Architecture) : a.toJson.IsWritable := by
  cases a <;> exact .string _

@[simp] theorem StringScope.ofJson?_toJson (s : StringScope) : ofJson? s.toJson = some s := by
  cases s <;> rfl

@[simp] theorem StringScope.isWritable_toJson (s : StringScope) : s.toJson.IsWritable := by
  cases s with
  | wholeImage => exact .string _
  | ofSection name => exact .object (by simp [Json.IsWritable.string])

@[simp] theorem StringsConfig.ofJson?_toJson (c : StringsConfig) : ofJson? c.toJson = some c := by
  rw [ofJson?, toJson, Json.fields?_object (by simp)]
  simp [Json.field_cons_of_ne]

@[simp] theorem StringsConfig.isWritable_toJson (c : StringsConfig) : c.toJson.IsWritable :=
  .object (by simp [Json.isWritable_option])

@[simp] theorem DisasmConfig.ofJson?_toJson (c : DisasmConfig) : ofJson? c.toJson = some c := by
  have harchitecture : Json.nullable Architecture.ofJson? (.option Architecture.toJson c.architecture)
      = some c.architecture :=
    Json.nullable_option Architecture.ofJson?_toJson (fun a => by cases a <;> exact nofun) _
  rw [ofJson?, toJson, Json.fields?_object (by simp)]
  simp [Json.field_cons_of_ne, harchitecture]

@[simp] theorem DisasmConfig.isWritable_toJson (c : DisasmConfig) : c.toJson.IsWritable :=
  .object (by simp [Json.isWritable_option Architecture.isWritable_toJson])

@[simp] theorem SearchConfig.ofJson?_toJson (c : SearchConfig) : ofJson? c.toJson = some c := by
  rw [ofJson?, toJson, Json.fields?_object (by simp)]
  simp [Json.field_cons_of_ne]

@[simp] theorem SearchConfig.isWritable_toJson (c : SearchConfig) : c.toJson.IsWritable :=
  .object (by simp [Json.isWritable_option])

namespace Config

theorem ofJson?_toJson (c : Config) : ofJson? c.toJson = some c := by
  rw [ofJson?, toJson, Json.fields?_object (by simp)]
  simp [Json.field_cons_of_ne, Json.bool?]

theorem isWritable_toJson (c : Config) : c.toJson.IsWritable :=
  .object (by simp [Json.IsWritable.bool])

/-! ### The text of the settings -/

theorem ofText_eq_ok_iff {text : String} {c : Config} :
    ofText text = .ok c ↔ (Json.parse? text).bind ofJson? = some c ∧ c.validate = .ok () := by
  rw [ofText]
  cases (Json.parse? text).bind ofJson? with
  | none => simp [throw, throwThe, MonadExceptOf.throw]
  | some read =>
    simp only [bind_eq_ok_iff, Option.some.injEq]
    constructor
    · rintro ⟨⟨⟩, hvalid, hread⟩
      cases hread
      exact ⟨rfl, hvalid⟩
    · rintro ⟨rfl, hvalid⟩
      exact ⟨⟨⟩, hvalid, rfl⟩

theorem bind_parse?_toText (c : Config) : (Json.parse? c.toText).bind ofJson? = some c := by
  rw [toText, Json.parse?_pretty c.isWritable_toJson, Option.bind_some, ofJson?_toJson]

/-- Settings that break a rule are written all the same; their text is refused with the fault of the
first rule they break. -/
theorem ofText_toText_of_broken {c : Config} {fault : Fault} (h : c.validate = .error fault) :
    ofText c.toText = .error fault := by
  rw [ofText, bind_parse?_toText]
  exact bind_eq_error_iff.2 (.inl h)

/-- Settings that obey the rules come back from their text unchanged, whatever their numbers and the
name of their section, and no text reads as settings that break a rule. -/
theorem ofText_toText :
    (∀ c : Config, c.validate = .ok () → ofText c.toText = .ok c) ∧
      ∀ (text : String) (c : Config), ofText text = .ok c → c.validate = .ok () := by
  constructor
  · intro c hvalid
    exact ofText_eq_ok_iff.2 ⟨c.bind_parse?_toText, hvalid⟩
  · intro text c h
    exact (ofText_eq_ok_iff.1 h).2

def escaping : Config where
  strings :=
    { minLength := 18446744073709551615
      scope := .ofSection "\"a\\b\n\x01é😀"
      maxResults := none }
  disasm := { parallelChunkBytes := 1, architecture := some .arm64 }
  search := { maxResults := some 0 }
  parallel := false

theorem ofText_toText_escaping :
    escaping.validate = .ok () ∧ ofText escaping.toText = .ok escaping := by
  have hread := ofText_toText.1 escaping rfl
  exact ⟨ofText_toText.2 escaping.toText escaping hread, hread⟩

end Config

end ElfAtlas
