import Mathlib.Data.List.Basic
import Mathlib.Data.List.Induction
import ElfAtlas.Analysis.Session
import ElfAtlas.Proofs.Xref.Edges

/-!
The maps from addresses to places list exactly the places where the references of an address stand, so
that a look-up gives what a scan of all references would. Annotations and edges enter through `push`,
which keeps this; nothing else touches the references or the maps.
-/

namespace ElfAtlas

theorem PlaceMap.getD_add (m : PlaceMap) (address a : UInt64) (place : Nat) :
    ((m.add address place).getD a #[]).toList =
      (m.getD a #[]).toList ++ if address = a then [place] else [] := by
  rw [PlaceMap.add, Std.HashMap.getD_insert]
  by_cases h : address = a
  · subst h
    simp
  · simp [h]

/-- Going through the places of what satisfies `p` is filtering by `p`. -/
theorem filterMap_findIdxs {α : Type} (p : α → Bool) (xs : List α) :
    (xs.findIdxs p).filterMap (xs[·]?) = xs.filter p := by
  induction xs using List.reverseRecOn with
  | nil => rfl
  | append_singleton xs x ih =>
      have hinside : (xs.findIdxs p).filterMap ((xs ++ [x])[·]?) = xs.filter p := by
        rw [← ih]
        refine List.filterMap_congr fun n hn => ?_
        have hn : n < xs.length := (List.mem_findIdxs_iff_exists_getElem_pos.1 hn).1
        rw [List.getElem?_append_left hn]
      rw [List.findIdxs_append, List.filterMap_append, hinside, List.filter_append]
      cases hp : p x <;> simp [List.findIdxs_cons, hp]

namespace XrefIndex

/-- The places in the maps are those of the references with that target or that source, in order. -/
structure IsConsistent (x : XrefIndex) : Prop where
  target_eq : ∀ a, (x.byTarget.getD a #[]).toList = x.toList.findIdxs fun r => r.target = a
  source_eq : ∀ a, (x.bySource.getD a #[]).toList = x.toList.findIdxs fun r => r.source = some a

theorem isConsistent_empty : IsConsistent {} where
  target_eq := by simp [toList]
  source_eq := by simp [toList]

variable {x : XrefIndex}

theorem IsConsistent.push (h : x.IsConsistent) (r : CrossReference) : (x.push r).IsConsistent where
  target_eq a := by
    rw [toList_push, List.findIdxs_append, ← h.target_eq]
    exact (PlaceMap.getD_add _ _ _ _).trans (by simp [List.findIdxs_cons, toList])
  source_eq a := by
    rw [toList_push, List.findIdxs_append, ← h.source_eq]
    cases hr : r.source with
    | none => simp [XrefIndex.push, hr, List.findIdxs_cons]
    | some source =>
        have hmap : (x.push r).bySource = x.bySource.add source x.refs.size := by
          simp [XrefIndex.push, hr]
        rw [hmap, PlaceMap.getD_add]
        simp [hr, List.findIdxs_cons, toList]

theorem IsConsistent.foldl_push (h : x.IsConsistent) (rs : List CrossReference) :
    (rs.foldl XrefIndex.push x).IsConsistent := by
  induction rs generalizing x with
  | nil => exact h
  | cons r rs ih => exact ih (h.push r)

theorem scanned_foldl_push (x : XrefIndex) (rs : List CrossReference) :
    (rs.foldl XrefIndex.push x).scanned = x.scanned := by
  induction rs generalizing x with
  | nil => rfl
  | cons r rs ih => exact ih (x.push r)

/-- A look-up through a map that lists the places of what satisfies `p`. -/
theorem atPlaces_eq {m : PlaceMap} {a : UInt64} {p : CrossReference → Bool}
    (h : (m.getD a #[]).toList = x.toList.findIdxs p) : x.atPlaces m a = x.toList.filter p := by
  rw [atPlaces, h, ← filterMap_findIdxs]
  simp only [toList, Array.getElem?_toList]

end XrefIndex

namespace XrefBuilder

inductive Step where
  | instruction (i : Instruction)
  | diagnostic (d : Diagnostic)

def Step.isInstruction : Step → Bool
  | .instruction _ => true
  | .diagnostic _ => false

def step (b : XrefBuilder) : Step → XrefBuilder
  | .instruction i => b.addInstruction i
  | .diagnostic d => b.addDiagnostic d

def run (b : XrefBuilder) (steps : List Step) : XrefBuilder := steps.foldl step b

variable {b : XrefBuilder}

structure IsFresh (b : XrefBuilder) : Prop where
  consistent : b.index.IsConsistent
  scanned_eq : b.index.scanned = 0

theorem IsFresh.addSymbol (h : b.IsFresh) (s : Symbol) : (b.addSymbol s).IsFresh := by
  have hkept : b.index.IsConsistent := h.consistent
  rw [XrefBuilder.addSymbol]
  split
  · dsimp only
    split
    · -- The names of a symbol leave the references and their maps alone.
      refine ⟨XrefIndex.IsConsistent.push ?_ _, h.scanned_eq⟩
      exact ⟨hkept.target_eq, hkept.source_eq⟩
    · exact ⟨⟨hkept.target_eq, hkept.source_eq⟩, h.scanned_eq⟩
  · exact h

theorem IsFresh.addString (h : b.IsFresh) (s : ExtractedString) : (b.addString s).IsFresh := by
  rw [XrefBuilder.addString]
  split
  · exact h
  · exact ⟨h.consistent.push _, h.scanned_eq⟩

theorem seed_isFresh (symbols : List Symbol) (strings : List ExtractedString) :
    (seed symbols strings).IsFresh := by
  refine List.foldlRecOn strings _ ?_ fun b h s _ => h.addString s
  refine List.foldlRecOn symbols _ ?_ fun b h s _ => h.addSymbol s
  exact ⟨XrefIndex.isConsistent_empty, rfl⟩

theorem step_spec (h : b.index.IsConsistent) (s : Step) :
    (b.step s).index.IsConsistent ∧
      (b.step s).index.scanned = b.index.scanned + [s].countP Step.isInstruction := by
  cases s with
  | diagnostic d => exact ⟨⟨h.target_eq, h.source_eq⟩, rfl⟩
  | instruction i =>
      obtain ⟨added, hadded, -⟩ := b.addInstruction_eq i
      rw [step, hadded]
      refine ⟨XrefIndex.IsConsistent.foldl_push ?_ added, XrefIndex.scanned_foldl_push _ added⟩
      exact ⟨h.target_eq, h.source_eq⟩

theorem run_spec (h : b.index.IsConsistent) (steps : List Step) :
    (b.run steps).index.IsConsistent ∧
      (b.run steps).index.scanned = b.index.scanned + steps.countP Step.isInstruction := by
  induction steps generalizing b with
  | nil => exact ⟨h, rfl⟩
  | cons s steps ih =>
      obtain ⟨hstep, hscanned⟩ := step_spec h s
      obtain ⟨hrun, htotal⟩ := ih hstep
      refine ⟨hrun, ?_⟩
      rw [List.countP_cons, Nat.add_comm (steps.countP _), ← Nat.add_assoc]
      rw [List.countP_singleton] at hscanned
      rw [← hscanned]
      exact htotal

/-- A finished index answers as a scan of its references would, in both directions. The places in its
maps are those of the references, each once and in order, and every instruction has been counted. -/
theorem lookups_eq_scan (symbols : List Symbol) (strings : List ExtractedString)
    (steps : List Step) (a : UInt64) :
    let x := ((seed symbols strings).run steps).finish
    x.referencesTo a = x.toList.filter (fun r => r.target = a) ∧
      x.referencesFrom a = x.toList.filter (fun r => r.source = some a) ∧
      (x.byTarget.getD a #[]).toList = x.toList.findIdxs (fun r => r.target = a) ∧
      (x.bySource.getD a #[]).toList = x.toList.findIdxs (fun r => r.source = some a) ∧
      x.scanned = steps.countP Step.isInstruction := by
  have hseed := seed_isFresh symbols strings
  obtain ⟨hrun, hscanned⟩ := run_spec hseed.consistent steps
  rw [hseed.scanned_eq, Nat.zero_add] at hscanned
  exact ⟨XrefIndex.atPlaces_eq (hrun.target_eq a), XrefIndex.atPlaces_eq (hrun.source_eq a),
    hrun.target_eq a, hrun.source_eq a, hscanned⟩

end XrefBuilder

/-- The index of an analysis is one that such steps build, so its look-ups agree with a scan as well. -/
theorem Analysis.buildXrefs_isConsistent {σ δ : Type} (e : Engine σ δ) (a : Analysis) (shared : σ) :
    ∀ index ∈ (a.buildXrefs e shared).1, index.IsConsistent := by
  have hrun (steps : List XrefBuilder.Step) :
      ((XrefBuilder.seed a.symbols a.strings).run steps).index.IsConsistent :=
    (XrefBuilder.run_spec (XrefBuilder.seed_isFresh _ _).consistent steps).1
  have hwalk (seen : List Instruction) :
      seen.foldl XrefBuilder.addInstruction (XrefBuilder.seed a.symbols a.strings) =
        (XrefBuilder.seed a.symbols a.strings).run (seen.map .instruction) := by
    rw [XrefBuilder.run, List.foldl_map]
    rfl
  rw [buildXrefs]
  split
  · rintro _ ⟨⟩
    exact hrun [.diagnostic _]
  · dsimp only
    split
    · rintro _ ⟨⟩
      rw [hwalk]
      exact hrun _
    · rintro _ ⟨⟩
      rw [hwalk]
      exact (XrefBuilder.step_spec (hrun _) (.diagnostic _)).1
    · rintro _ ⟨⟩

end ElfAtlas
