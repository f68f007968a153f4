import Mathlib.Data.List.Basic
import Mathlib.Data.List.Induction
import Mathlib.Data.List.TakeWhile
import ElfAtlas.Elf.Dynamic
import ElfAtlas.Proofs.Elf.HeaderEncoding

/-!
The facts for the dynamic linker. They are a function of the entries before the first null tag and of the
bytes of the linked string table; nothing else of the image matters. Of repeated names the first that can
be read counts. Of repeated flag words the last counts, while a look-up by tag gives the first.
-/

namespace ElfAtlas

section Selection

variable {α β : Type}

/-- The elements of `bs` are those that belong to elements of `as`, in order. -/
inductive Selects (p : α → β → Prop) : List α → List β → Prop where
  | nil : Selects p [] []
  | keep {a : α} {b : β} {as : List α} {bs : List β} :
      p a b → Selects p as bs → Selects p (a :: as) (b :: bs)
  | skip {a : α} {as : List α} {bs : List β} :
      (∀ b, ¬p a b) → Selects p as bs → Selects p (a :: as) bs

/-- What belongs to the first element of `as` to which anything does. -/
inductive SelectsFirst (p : α → β → Prop) (as : List α) : Option β → Prop where
  | some {before after : List α} {a : α} {b : β} :
      as = before ++ a :: after → p a b → (∀ x ∈ before, ∀ c, ¬p x c) → SelectsFirst p as (some b)
  | none : (∀ x ∈ as, ∀ c, ¬p x c) → SelectsFirst p as none

variable {p : α → β → Prop} {f : α → Option β}

theorem selects_filterMap (hp : ∀ a b, p a b ↔ f a = some b) (as : List α) :
    Selects p as (as.filterMap f) := by
  induction as with
  | nil => exact .nil
  | cons a as ih =>
      cases hf : f a with
      | none =>
          rw [List.filterMap_cons_none hf]
          exact .skip (fun b => by simp [hp, hf]) ih
      | some b =>
          rw [List.filterMap_cons_some hf]
          exact .keep ((hp a b).2 hf) ih

theorem selectsFirst_findSome? (hp : ∀ a b, p a b ↔ f a = some b) (as : List α) :
    SelectsFirst p as (as.findSome? f) := by
  have hnone {a : α} (hf : f a = none) (b : β) : ¬p a b := by simp [hp, hf]
  cases hfirst : as.findSome? f with
  | none => exact .none fun x hx => hnone (List.findSome?_eq_none_iff.1 hfirst x hx)
  | some b =>
      obtain ⟨before, a, after, has, hf, hbefore⟩ := List.findSome?_eq_some_iff.1 hfirst
      exact .some has ((hp a b).2 hf) fun x hx => hnone (hbefore x hx)

end Selection

namespace DynamicInfo

/-- What stands before the first null tag. -/
structure IsFront (front all : List DynamicEntry) : Prop where
  isPrefix : front <+: all
  tag_ne : ∀ e ∈ front, e.tag ≠ DynamicTag.null
  longest : ∀ other, other <+: all → (∀ e ∈ other, e.tag ≠ DynamicTag.null) → other <+: front

theorem isFront_iff {front all : List DynamicEntry} :
    IsFront front all ↔ front = all.takeWhile (·.tag ≠ DynamicTag.null) := by
  have hinside {other : List DynamicEntry} (hother : other <+: all)
      (hne : ∀ e ∈ other, e.tag ≠ DynamicTag.null) :
      other <+: all.takeWhile (·.tag ≠ DynamicTag.null) := by
    obtain ⟨rest, rfl⟩ := hother
    rw [List.takeWhile_append_of_pos fun e he => decide_eq_true (hne e he)]
    exact List.prefix_append ..
  have hne : ∀ e ∈ all.takeWhile (·.tag ≠ DynamicTag.null), e.tag ≠ DynamicTag.null :=
    fun e he => by simpa using List.mem_takeWhile_imp he
  constructor
  · intro hfront
    have hle := (hfront.longest _ (List.takeWhile_prefix _) hne).length_le
    exact (hinside hfront.isPrefix hfront.tag_ne).eq_of_length_le hle
  · rintro rfl
    exact ⟨List.takeWhile_prefix _, hne, fun _ => hinside⟩

def table (r : Reader) (h : FileHeader) (s : Section) : List DynamicEntry :=
  ((layout h.elfClass s).walk r fun offset _ => DynamicEntry.decode h.elfClass r offset).1

def stringTable? (r : Reader) (t : SectionTable) (s : Section) : Option (List UInt8) := do
  let strings ← t.linked? s.link
  if strings.hasFileData then (r.slice strings.offset.toNat strings.size.toNat).toOption else none

/-- The value is a position in the linked string table, and this text stands there: it ends before a NUL
or with the table. -/
def Resolves (r : Reader) (t : SectionTable) (s : Section) (value : UInt64) (name : String) : Prop :=
  ∃ bytes, stringTable? r t s = some bytes ∧ value.toNat < bytes.length ∧
    name = Utf8.decode ((bytes.drop value.toNat).takeWhile (· != 0))

def Names (r : Reader) (t : SectionTable) (s : Section) (tag : Int64) (e : DynamicEntry)
    (name : String) : Prop :=
  e.tag = tag ∧ Resolves r t s e.value name

def HasValue (tag : Int64) (e : DynamicEntry) (value : UInt64) : Prop := e.tag = tag ∧ e.value = value

variable {r : Reader} {h : FileHeader} {t : SectionTable} {s : Section} {tag : Int64}

def linkedText? (r : Reader) (t : SectionTable) (s : Section) : UInt64 → Option String :=
  textAt r ((t.linked? s.link).filter (·.hasFileData))

theorem linkedText?_eq_some_iff {value : UInt64} {name : String} :
    linkedText? r t s value = some name ↔ Resolves r t s value name := by
  rw [linkedText?, textAt, Resolves, stringTable?]
  cases t.linked? s.link with
  | none => simp
  | some strings =>
      cases hfile : strings.hasFileData <;>
        simp [Option.filter, hfile, toOption_eq_some_iff, Reader.text_eq_ok_iff]

def valuesOf (entries : List DynamicEntry) (tag : Int64) : List UInt64 :=
  entries.filterMap fun e => if e.tag = tag then some e.value else none

/-- What each field has after these entries, each from the values of its own tag. -/
def gathered (textOf : UInt64 → Option String) (entries : List DynamicEntry) : DynamicInfo where
  needed := (valuesOf entries DynamicTag.needed).filterMap textOf
  soname := ((valuesOf entries DynamicTag.soname).filterMap textOf).head?
  rpath := ((valuesOf entries DynamicTag.rpath).filterMap textOf).head?
  runpath := ((valuesOf entries DynamicTag.runpath).filterMap textOf).head?
  flags := (valuesOf entries DynamicTag.flags).getLast?
  flags1 := (valuesOf entries DynamicTag.flags1).getLast?
  bindNow := !(valuesOf entries DynamicTag.bindNow).isEmpty

theorem valuesOf_append_singleton (entries : List DynamicEntry) (e : DynamicEntry) (tag : Int64) :
    valuesOf (entries ++ [e]) tag =
      valuesOf entries tag ++ if e.tag = tag then [e.value] else [] := by
  rw [valuesOf, List.filterMap_append]
  split <;> simp [valuesOf, *]

theorem addEntry_gathered (textOf : UInt64 → Option String) (entries : List DynamicEntry)
    (e : DynamicEntry) :
    addEntry textOf (gathered textOf entries) e = gathered textOf (entries ++ [e]) := by
  have hone : [e.value].filterMap textOf = (textOf e.value).toList := by
    cases htext : textOf e.value <;> simp [htext]
  rw [addEntry]
  split_ifs <;> simp_all [gathered, valuesOf_append_singleton, DynamicTag.needed, DynamicTag.soname,
    DynamicTag.rpath, DynamicTag.runpath, DynamicTag.flags, DynamicTag.flags1, DynamicTag.bindNow]

theorem foldl_addEntry (textOf : UInt64 → Option String) (entries : List DynamicEntry) :
    entries.foldl (addEntry textOf) {} = gathered textOf entries := by
  induction entries using List.reverseRecOn with
  | nil => rfl
  | append_singleton entries e ih =>
      rw [List.foldl_append, ih]
      exact addEntry_gathered textOf entries e

def facts (textOf : UInt64 → Option String) (entries : List DynamicEntry) : DynamicInfo :=
  (gathered textOf entries).finish entries

theorem parse_eq (hs : (t.ofKind .dynamic).head? = some s) :
    (parse r h t).1 =
      some (facts (linkedText? r t s) ((table r h s).takeWhile (·.tag ≠ DynamicTag.null))) := by
  rw [parse, hs, facts, ← foldl_addEntry]
  rfl

/-- The values with a tag, each replaced by what `f` makes of it. -/
theorem filterMap_valuesOf {β : Type} (f : UInt64 → Option β) (tag : Int64)
    (entries : List DynamicEntry) :
    (valuesOf entries tag).filterMap f =
      entries.filterMap fun e => if e.tag = tag then f e.value else none := by
  rw [valuesOf, List.filterMap_filterMap]
  refine List.filterMap_congr fun e _ => ?_
  split <;> rfl

theorem names_iff (e : DynamicEntry) (name : String) :
    Names r t s tag e name ↔
      (if e.tag = tag then linkedText? r t s e.value else none) = some name := by
  rw [Names, ← linkedText?_eq_some_iff]
  split <;> simp_all

theorem hasValue_iff (e : DynamicEntry) (value : UInt64) :
    HasValue tag e value ↔ (if e.tag = tag then some e.value else none) = some value := by
  rw [HasValue]
  split <;> simp_all

theorem selects_texts (entries : List DynamicEntry) :
    Selects (Names r t s tag) entries
      ((valuesOf entries tag).filterMap (linkedText? r t s)) := by
  rw [filterMap_valuesOf]
  exact selects_filterMap names_iff entries

theorem selectsFirst_text (entries : List DynamicEntry) :
    SelectsFirst (Names r t s tag) entries
      ((valuesOf entries tag).filterMap (linkedText? r t s)).head? := by
  rw [filterMap_valuesOf, List.head?_filterMap]
  exact selectsFirst_findSome? names_iff entries

/-- The entries are what stands before the first null tag. The needed names are the texts of their entries
that have one, in order; each other name is the text of the first entry with its tag that has one. The
facts are the same in every image where the same entries stand before the first null tag and where the
linked string table has the same bytes, whatever follows that tag. -/
theorem parse_reads_front (hs : (t.ofKind .dynamic).head? = some s) :
    ∃ info, (parse r h t).1 = some info ∧
      IsFront info.entries (table r h s) ∧
      Selects (Names r t s DynamicTag.needed) info.entries info.needed ∧
      SelectsFirst (Names r t s DynamicTag.soname) info.entries info.soname ∧
      SelectsFirst (Names r t s DynamicTag.rpath) info.entries info.rpath ∧
      SelectsFirst (Names r t s DynamicTag.runpath) info.entries info.runpath ∧
      ∀ (r' : Reader) (h' : FileHeader) (t' : SectionTable) (s' : Section),
        (t'.ofKind .dynamic).head? = some s' → IsFront info.entries (table r' h' s') →
        stringTable? r' t' s' = stringTable? r t s → (parse r' h' t').1 = some info := by
  refine ⟨_, parse_eq hs, isFront_iff.2 rfl, selects_texts _, selectsFirst_text _,
    selectsFirst_text _, selectsFirst_text _, ?_⟩
  intro r' h' t' s' hs' hfront hstrings
  have htexts : linkedText? r' t' s' = linkedText? r t s := by
    funext value
    refine Option.ext fun name => ?_
    rw [linkedText?_eq_some_iff, linkedText?_eq_some_iff, Resolves, Resolves, hstrings]
  rw [parse_eq hs', htexts, ← isFront_iff.1 hfront]
  rfl

/-- A table of 8-byte entries behind its string table, once with two entries behind the null tag and once
cut off there. The first soname entry has its position behind the texts. -/
theorem parse_reads_front_of_cut :
    let h : FileHeader :=
      { elfClass := .elf32, order := .big, identVersion := 1, osAbi := 0, abiVersion := 0,
        fileTypeCode := 3, machineCode := 40, version := 1, entry := 0, segmentOffset := 0,
        sectionOffset := 0, flags := 0, headerSize := 52, segmentEntrySize := 0, segmentCount := 0,
        sectionEntrySize := 0, sectionCount := 0, nameTableIndex := 0 }
    let strings : Section := ⟨0, "", 0, .strtab, ⟨0⟩, 0, 0, 5, 0, 0, 0, 0⟩
    let s : Section := ⟨1, "", 0, .dynamic, ⟨0⟩, 0, 5, 48, 0, 0, 0, 0⟩
    let t : SectionTable := ⟨#[strings, s]⟩
    let front : List UInt8 :=
      [0, 97, 0, 98, 0, 0, 0, 0, 1, 0, 0, 0, 1, 0, 0, 0, 14, 0, 0, 0, 5, 0, 0, 0, 14, 0, 0, 0, 3,
        0, 0, 0, 0, 0, 0, 0, 0]
    let whole : Reader := ⟨(front ++ [0, 0, 0, 1, 0, 0, 0, 3, 0, 0, 0, 15, 0, 0, 0, 1]).toArray, .big⟩
    let cut : Reader := ⟨front.toArray, .big⟩
    (t.ofKind .dynamic).head? = some s ∧
      ∃ info, (parse whole h t).1 = some info ∧ (parse cut h t).1 = some info ∧
        info.needed = ["a"] ∧ info.soname = some "b" ∧ info.rpath = none := by
  intro h strings s t front whole cut
  have hs : (t.ofKind .dynamic).head? = some s := by decide
  obtain ⟨info, hinfo, hfront, -, -, -, -, hsame⟩ := parse_reads_front (r := whole) (h := h) hs
  have hcut : IsFront info.entries (table cut h s) := by
    rw [isFront_iff] at hfront ⊢
    rw [hfront]
    decide +kernel
  have hresult : (parse whole h t).1.map (fun d => (d.needed, d.soname, d.rpath)) =
      some (["a"], some "b", none) := by decide +kernel
  rw [hinfo] at hresult
  simp only [Option.map_some, Option.some.injEq, Prod.mk.injEq] at hresult
  exact ⟨hs, info, hinfo, hsame cut h t s hs hcut (by decide +kernel), hresult⟩

theorem value?_eq_head? (d : DynamicInfo) (tag : Int64) :
    d.value? tag = (valuesOf d.entries tag).head? := by
  rw [value?, valuesOf, List.head?_filterMap]
  induction d.entries with
  | nil => rfl
  | cons e entries ih =>
      rw [List.find?_cons, List.findSome?_cons]
      by_cases htag : e.tag = tag <;> simp [htag, ih]

theorem selectsFirst_value? (d : DynamicInfo) (tag : Int64) :
    SelectsFirst (HasValue tag) d.entries (d.value? tag) := by
  rw [value?_eq_head?, valuesOf, List.head?_filterMap]
  exact selectsFirst_findSome? hasValue_iff d.entries

theorem selectsFirst_reverse (entries : List DynamicEntry) (tag : Int64) :
    SelectsFirst (HasValue tag) entries.reverse (valuesOf entries tag).getLast? := by
  rw [valuesOf, List.getLast?_filterMap]
  exact selectsFirst_findSome? hasValue_iff entries.reverse

def IsUniform (tag : Int64) (entries : List DynamicEntry) : Prop :=
  ∀ e ∈ entries, ∀ e' ∈ entries, e.tag = tag → e'.tag = tag → e.value = e'.value

theorem IsUniform.getLast?_eq_head? {entries : List DynamicEntry} (h : IsUniform tag entries) :
    (valuesOf entries tag).getLast? = (valuesOf entries tag).head? := by
  have hvalue {v v' : UInt64} (hv : v ∈ valuesOf entries tag) (hv' : v' ∈ valuesOf entries tag) :
      v = v' := by
    obtain ⟨e, he, hev⟩ := List.mem_filterMap.1 hv
    obtain ⟨e', he', hev'⟩ := List.mem_filterMap.1 hv'
    obtain ⟨htag, rfl⟩ := (hasValue_iff e v).2 hev
    obtain ⟨htag', rfl⟩ := (hasValue_iff e' v').2 hev'
    exact h e he e' he' htag htag'
  cases hvalues : valuesOf entries tag with
  | nil => rfl
  | cons v vs =>
      rw [hvalues] at hvalue
      obtain ⟨last, hlast⟩ := Option.isSome_iff_exists.1
        (List.getLast?_isSome.2 (List.cons_ne_nil v vs))
      rw [hlast, List.head?_cons, hvalue (List.mem_of_getLast? hlast) List.mem_cons_self]

/-- The fields for flag words and immediate binding say what a look-up of their tags says. -/
structure AgreesWithLookup (d : DynamicInfo) : Prop where
  flags : d.flags = d.value? DynamicTag.flags
  flags1 : d.flags1 = d.value? DynamicTag.flags1
  bindNow : d.bindNow = true ↔ (d.value? DynamicTag.bindNow).isSome = true ∨
    (∃ v, d.value? DynamicTag.flags = some v ∧ v &&& 8 ≠ 0) ∨
      ∃ v, d.value? DynamicTag.flags1 = some v ∧ v &&& 1 ≠ 0

theorem bindNow_facts (textOf : UInt64 → Option String) (entries : List DynamicEntry) :
    let d := facts textOf entries
    d.bindNow = true ↔ (d.value? DynamicTag.bindNow).isSome = true ∨
      (∃ v, d.flags = some v ∧ v &&& 8 ≠ 0) ∨ ∃ v, d.flags1 = some v ∧ v &&& 1 ≠ 0 := by
  intro d
  rw [value?_eq_head?]
  simp [d, facts, gathered, finish, List.isEmpty_eq_false_iff, Option.any_eq_true, or_assoc]

theorem agreesWithLookup_facts {textOf : UInt64 → Option String} {entries : List DynamicEntry}
    (hflags : IsUniform DynamicTag.flags entries) (hflags1 : IsUniform DynamicTag.flags1 entries) :
    AgreesWithLookup (facts textOf entries) := by
  let d := facts textOf entries
  have hvalue : d.flags = d.value? DynamicTag.flags := by
    rw [value?_eq_head?]
    exact hflags.getLast?_eq_head?
  have hvalue1 : d.flags1 = d.value? DynamicTag.flags1 := by
    rw [value?_eq_head?]
    exact hflags1.getLast?_eq_head?
  refine ⟨hvalue, hvalue1, ?_⟩
  rw [← hvalue, ← hvalue1]
  exact bindNow_facts textOf entries

/-- A look-up gives the value of the first entry with its tag, a flag word is that of the last. Binding is
immediate exactly if its tag is there or one of these flag words says so. So the fields say what look-ups
say where all entries with the tag of a flag word have one value. -/
theorem parse_flags (hs : (t.ofKind .dynamic).head? = some s) :
    ∃ info, (parse r h t).1 = some info ∧
      (∀ tag, SelectsFirst (HasValue tag) info.entries (info.value? tag)) ∧
      SelectsFirst (HasValue DynamicTag.flags) info.entries.reverse info.flags ∧
      SelectsFirst (HasValue DynamicTag.flags1) info.entries.reverse info.flags1 ∧
      (info.bindNow = true ↔ (info.value? DynamicTag.bindNow).isSome = true ∨
        (∃ v, info.flags = some v ∧ v &&& 8 ≠ 0) ∨ ∃ v, info.flags1 = some v ∧ v &&& 1 ≠ 0) ∧
      (IsUniform DynamicTag.flags info.entries → IsUniform DynamicTag.flags1 info.entries →
        AgreesWithLookup info) :=
  ⟨_, parse_eq hs, selectsFirst_value? _, selectsFirst_reverse _ _, selectsFirst_reverse _ _,
    bindNow_facts _ _, agreesWithLookup_facts⟩

def flaggedHeader : FileHeader :=
  { elfClass := .elf64, order := .little, identVersion := 1, osAbi := 0, abiVersion := 0,
    fileTypeCode := 3, machineCode := 62, version := 1, entry := 0, segmentOffset := 0,
    sectionOffset := 64, flags := 0, headerSize := 64, segmentEntrySize := 56, segmentCount := 0,
    sectionEntrySize := 64, sectionCount := 2, nameTableIndex := 0 }

def flaggedImage (first second : UInt64) : Array UInt8 :=
  let sections : List SectionRecord :=
    [⟨0, 0, 0, 0, 0, 0, 0, 0, 0, 0⟩, ⟨0, 6, 0, 0, 192, 48, 0, 0, 8, 16⟩]
  let entries : List (Nat × Nat) :=
    [(8, 30), (8, first.toNat), (8, 30), (8, second.toNat), (8, 0), (8, 0)]
  flaggedHeader.imageWith
    ((sections.flatMap fun s : SectionRecord => ByteOrder.little.record (s.fields .elf64)) ++
      ByteOrder.little.record entries)

/-- Two equal flag words ask for immediate binding. -/
theorem parse_flags_of_equal_words :
    let r := flaggedHeader.reader (flaggedImage 8 8)
    let t := (SectionTable.parse r flaggedHeader (.resolve r flaggedHeader)).1
    ∃ s, (t.ofKind .dynamic).head? = some s ∧
      ∃ info, (parse r flaggedHeader t).1 = some info ∧ info.flags = some 8 ∧
        info.bindNow = true ∧ AgreesWithLookup info := by
  intro r t
  obtain ⟨s, hs⟩ : ∃ s, (t.ofKind .dynamic).head? = some s :=
    Option.isSome_iff_exists.1 (by decide +kernel)
  obtain ⟨info, hinfo, -, -, -, -, hagrees⟩ := parse_flags (r := r) (h := flaggedHeader) hs
  have hresult : (parse r flaggedHeader t).1.map (fun d => (d.entries, d.flags, d.bindNow)) =
      some ([⟨30, 8⟩, ⟨30, 8⟩], some 8, true) := by decide +kernel
  rw [hinfo] at hresult
  simp only [Option.map_some, Option.some.injEq, Prod.mk.injEq] at hresult
  obtain ⟨hentries, hflags, hbind⟩ := hresult
  refine ⟨s, hs, info, hinfo, hflags, hbind, hagrees ?_ ?_⟩
  · rw [hentries, IsUniform]
    decide
  · rw [hentries, IsUniform]
    decide

/-- The first of two flag words asks for immediate binding, the second does not; the fields follow the
second. -/
theorem flags_differ_from_lookup :
    let r := flaggedHeader.reader (flaggedImage 8 0)
    let t := (SectionTable.parse r flaggedHeader (.resolve r flaggedHeader)).1
    FileHeader.parse (flaggedImage 8 0) = .ok flaggedHeader ∧
      ∃ info, (parse r flaggedHeader t).1 = some info ∧ info.flags = some 0 ∧
        info.value? DynamicTag.flags = some 8 ∧ info.bindNow = false ∧ ¬AgreesWithLookup info := by
  intro r t
  have hparse : FileHeader.parse (flaggedImage 8 0) = .ok flaggedHeader :=
    FileHeader.parse_imageWith ⟨by decide, by decide, by decide⟩ _
  have hresult : (parse r flaggedHeader t).1.map
      (fun d => (d.flags, d.value? DynamicTag.flags, d.bindNow)) =
        some (some 0, some 8, false) := by decide +kernel
  obtain ⟨info, hinfo, hfields⟩ := Option.map_eq_some_iff.1 hresult
  obtain ⟨hflags, hvalue, hbind⟩ :
      info.flags = some 0 ∧ info.value? DynamicTag.flags = some 8 ∧ info.bindNow = false := by
    simpa using hfields
  refine ⟨hparse, info, hinfo, hflags, hvalue, hbind, fun hagrees => ?_⟩
  have := hagrees.flags
  rw [hflags, hvalue] at this
  cases this

end DynamicInfo

end ElfAtlas
