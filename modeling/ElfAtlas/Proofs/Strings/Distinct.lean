import Mathlib.Data.List.Nodup
import ElfAtlas.Proofs.Strings.Terminated
import ElfAtlas.Proofs.Text.Utf8
import ElfAtlas.Strings.Extract

/-!
Extraction keeps the first run of each content. A bound on the number of strings cuts the list off and
changes nothing before the cut, and where the scan asks for cancellation does not matter to what it finds.
-/

namespace ElfAtlas

section KeepFirst

variable {kept : Nat} {seen : Std.HashSet (List UInt8)} {runs : List Run}

/-- A bound leaves room for as many runs as are not kept yet. -/
theorem keepFirst_some (cap kept : Nat) (seen : Std.HashSet (List UInt8)) (runs : List Run) :
    keepFirst (some cap) kept seen runs = (keepFirst none kept seen runs).take (cap - kept) := by
  induction runs generalizing kept seen with
  | nil => simp [keepFirst]
  | cons run runs ih =>
      by_cases hcap : cap ≤ kept
      · have hroom : cap - kept = 0 := by omega
        simp [keepFirst, hcap, hroom]
      · have hroom : cap - kept = cap - (kept + 1) + 1 := by omega
        simp only [keepFirst, Option.any_some, Option.any_none, Bool.false_eq_true, if_false,
          decide_eq_true_eq, if_neg hcap]
        split
        · exact ih kept seen
        · rw [ih, hroom, List.take_succ_cons]

theorem keepFirst_sublist (cap : Option Nat) (kept : Nat) (seen : Std.HashSet (List UInt8))
    (runs : List Run) : (keepFirst cap kept seen runs).Sublist runs := by
  induction runs generalizing kept seen with
  | nil => exact .slnil
  | cons run runs ih =>
      rw [keepFirst]
      split
      · exact List.nil_sublist _
      · split
        · exact (ih kept seen).cons run
        · exact (ih (kept + 1) _).cons_cons run

/-- What is kept is new. -/
theorem not_mem_seen_of_mem_keepFirst {cap : Option Nat} {r : Run}
    (h : r ∈ keepFirst cap kept seen runs) : r.bytes ∉ seen := by
  induction runs generalizing kept seen with
  | nil => simp [keepFirst] at h
  | cons run runs ih =>
      rw [keepFirst] at h
      split at h
      · simp at h
      · split at h
        · exact ih h
        · rename_i hnew
          rcases List.mem_cons.1 h with rfl | h
          · simpa using hnew
          · have := ih h
            simp only [Std.HashSet.mem_insert, not_or] at this
            exact this.2

theorem nodup_keepFirst (cap : Option Nat) (kept : Nat) (seen : Std.HashSet (List UInt8))
    (runs : List Run) : ((keepFirst cap kept seen runs).map (·.bytes)).Nodup := by
  induction runs generalizing kept seen with
  | nil => exact .nil
  | cons run runs ih =>
      rw [keepFirst]
      split
      · exact .nil
      · split
        · exact ih kept seen
        · refine List.nodup_cons.2 ⟨fun h => ?_, ih _ _⟩
          obtain ⟨r, hr, hbytes⟩ := List.mem_map.1 h
          apply not_mem_seen_of_mem_keepFirst hr
          simp [hbytes]

/-- Of each content that is new, a run is kept that stands nowhere behind the others. -/
theorem exists_mem_keepFirst (kept : Nat) {r : Run}
    (hruns : runs.Pairwise (·.offset < ·.offset)) (hr : r ∈ runs) (hnew : r.bytes ∉ seen) :
    ∃ r' ∈ keepFirst none kept seen runs, r'.bytes = r.bytes ∧ r'.offset ≤ r.offset := by
  induction runs generalizing kept seen with
  | nil => simp at hr
  | cons run runs ih =>
      obtain ⟨hrun, hruns⟩ := List.pairwise_cons.1 hruns
      have hle : run.offset ≤ r.offset := by
        rcases List.mem_cons.1 hr with rfl | hr
        · exact Nat.le_refl _
        · exact Nat.le_of_lt (hrun r hr)
      simp only [keepFirst, Option.any_none, Bool.false_eq_true, if_false]
      split <;> rename_i hseen
      · have hr : r ∈ runs := by
          rcases List.mem_cons.1 hr with rfl | hr
          · exact absurd (Std.HashSet.mem_iff_contains.2 hseen) hnew
          · exact hr
        exact ih kept hruns hr hnew
      · by_cases hbytes : run.bytes = r.bytes
        · exact ⟨run, List.mem_cons_self, hbytes, hle⟩
        · have hr : r ∈ runs := by
            rcases List.mem_cons.1 hr with rfl | hr
            · exact absurd rfl hbytes
            · exact hr
          have hnew : r.bytes ∉ seen.insert run.bytes := by simp [hbytes, hnew]
          obtain ⟨r', hr', heq⟩ := ih (kept + 1) hruns hr hnew
          exact ⟨r', List.mem_cons_of_mem _ hr', heq⟩

end KeepFirst

theorem uniqueRuns_some (data : List UInt8) (minLength cap : Nat) :
    uniqueRuns data minLength (some cap) = (uniqueRuns data minLength none).take cap :=
  keepFirst_some cap 0 ∅ _

theorem uniqueRuns_sublist (data : List UInt8) (minLength : Nat) (cap : Option Nat) :
    (uniqueRuns data minLength cap).Sublist (Run.ofData data minLength) := by
  rw [← Runs.remaining_ofData, ← Runs.toList_eq_remaining]
  exact keepFirst_sublist cap 0 ∅ _

theorem isTerminated_of_mem_uniqueRuns {data : List UInt8} {minLength : Nat} {cap : Option Nat}
    {r : Run} (h : r ∈ uniqueRuns data minLength cap) : r.IsTerminated data minLength :=
  Run.mem_ofData_iff.1 ((uniqueRuns_sublist data minLength cap).subset h)

theorem pairwise_toList (data : List UInt8) (minLength : Nat) :
    (Runs.ofData data minLength).toList.Pairwise (·.offset < ·.offset) := by
  rw [Runs.toList_eq_remaining]
  exact Run.pairwise_accepted _ _ data

theorem exists_mem_uniqueRuns {data : List UInt8} {minLength : Nat} {r : Run}
    (h : r.IsTerminated data minLength) :
    ∃ r' ∈ uniqueRuns data minLength none, r'.bytes = r.bytes ∧ r'.offset ≤ r.offset := by
  have hmem : r ∈ (Runs.ofData data minLength).toList := by
    rw [Runs.toList_eq_remaining, Runs.remaining_ofData]
    exact Run.mem_ofData_iff.2 h
  exact exists_mem_keepFirst 0 (pairwise_toList data minLength) hmem (by simp)

namespace ExtractedString

/-- However often the scan pauses to ask for cancellation, it gathers the runs that are left. -/
theorem gather_eq {index : SectionIndex} {base : UInt64} {cap : Option Nat} {s : Runs} {kept : Nat}
    {seen : Std.HashSet (List UInt8)} (hs : s.IsSettled) :
    gather index base cap false s kept seen =
      .ok ((keepFirst cap kept seen s.remaining).map (ofRun index base)) := by
  fun_induction gather index base cap false s kept seen with
  | case1 _ _ _ hcancelled => simp at hcancelled
  | case2 s kept seen _ s' h hdone =>
      rw [Runs.remaining_of_next_eq h, Runs.remaining_of_not_mem (hs.of_next_eq h hdone)]
      rfl
  | case3 s kept seen _ s' h hdone ih =>
      rw [Runs.remaining_of_next_eq h]
      exact ih (hs.of_next_eq h)
  | case4 s kept seen _ run s' h hcap =>
      rw [Runs.remaining_of_next_eq h, Option.toList_some, List.singleton_append, keepFirst,
        if_pos hcap]
      rfl
  | case5 s kept seen _ run s' h hcap hseen ih =>
      rw [Runs.remaining_of_next_eq h, Option.toList_some, List.singleton_append, keepFirst,
        if_neg hcap, if_pos hseen]
      exact ih (hs.of_next_eq h)
  | case6 s kept seen _ run s' h hcap hseen ih =>
      rw [Runs.remaining_of_next_eq h, Option.toList_some, List.singleton_append, keepFirst,
        if_neg hcap, if_neg hseen, ih (hs.of_next_eq h)]
      rfl

/-- An uncancelled extraction gives the unique runs, each with its place and its owner. -/
theorem ofData_eq (data : List UInt8) (base : UInt64) (minLength : Nat) (cap : Option Nat)
    (t : SectionTable) :
    ofData data base minLength cap t false =
      .ok ((uniqueRuns data minLength cap).map (ofRun (.ofTable t) base)) := by
  rw [ofData, gather_eq (Runs.isSettled_ofData data minLength), uniqueRuns, Runs.toList_eq_remaining]

/-- The file position of a run, which is no more than its data allow. -/
theorem toNat_offset_ofRun (index : SectionIndex) {base : UInt64} {run : Run}
    (h : base.toNat + run.offset < UInt64.size) :
    (ofRun index base run).offset.toNat = base.toNat + run.offset := by
  have hsmall : run.offset < UInt64.size := by omega
  show (base + UInt64.ofNat run.offset).toNat = _
  rw [UInt64.toNat_add, UInt64.toNat_ofNat_of_lt' hsmall, Nat.mod_eq_of_lt h]

/-- Printable bytes are ASCII, so that the content has the bytes of the run. -/
theorem encode_content_ofRun (index : SectionIndex) (base : UInt64) {run : Run}
    (h : ∀ b ∈ run.bytes, isPrintable b = true) :
    Utf8.encode (ofRun index base run).content = run.bytes := by
  refine Utf8.encode_decode_of_ascii fun b hb => ?_
  have hprintable := h b hb
  simp only [isPrintable, Bool.and_eq_true, decide_eq_true_eq] at hprintable
  exact UInt8.lt_of_le_of_lt hprintable.2 (by decide)

/-- Extraction yields the unique runs of the data: their offsets behind `base` and their contents are
those of `uniqueRuns` with the same bound, and a bound of `k` leaves the first `k` of all. All of them
have different contents and increasing offsets. Each has the bytes of its content at its offset, with a
NUL behind them, and each terminated run has its content among them, at an offset no larger than its
own. -/
theorem ofData_eq_uniqueRuns {data : List UInt8} {base : UInt64} (minLength : Nat) (t : SectionTable)
    (h : base.toNat + data.length < UInt64.size) :
    ∃ all, ofData data base minLength none t false = .ok all ∧
      (∀ cap, ∃ found, ofData data base minLength cap t false = .ok found ∧
        found.map (fun s => (s.offset.toNat - base.toNat, Utf8.encode s.content)) =
          (uniqueRuns data minLength cap).map fun r => (r.offset, r.bytes)) ∧
      (∀ k, ofData data base minLength (some k) t false = .ok (all.take k) ∧
        uniqueRuns data minLength (some k) = (uniqueRuns data minLength none).take k) ∧
      (all.map (·.content)).Nodup ∧
      all.Pairwise (·.offset < ·.offset) ∧
      (∀ r : Run, r.IsTerminated data minLength →
        ∃ s ∈ all, Utf8.encode s.content = r.bytes ∧ s.offset.toNat ≤ base.toNat + r.offset) ∧
      ∀ s ∈ all, base ≤ s.offset ∧
        Run.IsTerminated data minLength ⟨s.offset.toNat - base.toNat, Utf8.encode s.content⟩ ∧
        Utf8.encode s.content ++ [0] <+: data.drop (s.offset.toNat - base.toNat) := by
  have hplace {cap : Option Nat} {r : Run} (hr : r ∈ uniqueRuns data minLength cap) :
      (ofRun (.ofTable t) base r).offset.toNat = base.toNat + r.offset := by
    have := (isTerminated_of_mem_uniqueRuns hr).offset_lt
    exact toNat_offset_ofRun _ (by omega)
  have hcontent {cap : Option Nat} {r : Run} (hr : r ∈ uniqueRuns data minLength cap) :
      Utf8.encode (ofRun (.ofTable t) base r).content = r.bytes :=
    encode_content_ofRun _ _ (isTerminated_of_mem_uniqueRuns hr).printable
  refine ⟨_, ofData_eq data base minLength none t, fun cap => ⟨_, ofData_eq .., ?_⟩,
    fun k => ⟨?_, uniqueRuns_some data minLength k⟩, ?_, ?_, ?_, ?_⟩
  · rw [List.map_map]
    refine List.map_congr_left fun r hr => ?_
    rw [Function.comp_apply, hplace hr, hcontent hr, Nat.add_sub_cancel_left]
  · rw [ofData_eq, uniqueRuns_some, List.map_take]
  · have hbytes : (uniqueRuns data minLength none).map
        ((Utf8.encode ∘ (·.content)) ∘ ofRun (.ofTable t) base) =
          (uniqueRuns data minLength none).map (·.bytes) :=
      List.map_congr_left fun r hr => hcontent hr
    refine List.Nodup.of_map Utf8.encode ?_
    rw [List.map_map, List.map_map, hbytes]
    exact nodup_keepFirst ..
  · refine List.pairwise_map.2 ?_
    have hoffsets : (uniqueRuns data minLength none).Pairwise (·.offset < ·.offset) :=
      (Run.pairwise_accepted _ _ data).sublist (uniqueRuns_sublist data minLength none)
    refine List.Pairwise.imp_of_mem (fun {r r'} hr hr' hlt => ?_) hoffsets
    rw [UInt64.lt_iff_toNat_lt, hplace hr, hplace hr']
    exact Nat.add_lt_add_left hlt _
  · intro r hr
    obtain ⟨r', hr', hbytes, hle⟩ := exists_mem_uniqueRuns hr
    refine ⟨_, List.mem_map_of_mem hr', (hcontent hr').trans hbytes, ?_⟩
    rw [hplace hr']
    exact Nat.add_le_add_left hle _
  · intro s hs
    obtain ⟨r, hr, rfl⟩ := List.mem_map.1 hs
    have hterminated := isTerminated_of_mem_uniqueRuns hr
    rw [hplace hr, hcontent hr, Nat.add_sub_cancel_left]
    refine ⟨?_, hterminated, hterminated.prefix_drop⟩
    rw [UInt64.le_iff_toNat_le, hplace hr]
    exact Nat.le_add_right _ _

/-- Two words, one of them twice, with a bell in between that spoils the start of another. -/
theorem ofData_eq_uniqueRuns_repeated :
    let data : List UInt8 :=
      [0x6f, 0x6e, 0x65, 0, 0x78, 7, 0x74, 0x77, 0x6f, 0, 0x6f, 0x6e, 0x65, 0, 0x6f, 0x6e, 0x65]
    (0x1000 : UInt64).toNat + data.length < UInt64.size ∧
      ∃ all, ofData data 0x1000 3 none {} false = .ok all ∧
        ofData data 0x1000 3 (some 1) {} false = .ok (all.take 1) ∧
        all.map (fun s => (s.offset.toNat - 0x1000, Utf8.encode s.content)) =
          [(0, [0x6f, 0x6e, 0x65]), (6, [0x74, 0x77, 0x6f])] := by
  intro data
  have hfits : (0x1000 : UInt64).toNat + data.length < UInt64.size := by decide
  refine ⟨hfits, ?_⟩
  obtain ⟨all, hall, hcaps, hfirst, -⟩ := ofData_eq_uniqueRuns 3 {} hfits
  obtain ⟨found, hfound, hpairs⟩ := hcaps none
  obtain rfl : found = all := Except.ok.inj (hfound.symm.trans hall)
  refine ⟨found, hall, (hfirst 1).1, hpairs.trans ?_⟩
  rw [uniqueRuns, Runs.toList_eq_remaining, Runs.remaining_ofData]
  cbv

end ExtractedString

end ElfAtlas
