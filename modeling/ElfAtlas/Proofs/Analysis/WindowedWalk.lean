import ElfAtlas.Analysis.Session
import ElfAtlas.Proofs.Analysis.WalkHalt

/-!
The walk over all code, one window at a time, sees what one stream over each whole region yields. The
invariant is that every window starts at an instruction boundary of the sweep over its region: an
instruction that is seen has enough bytes before the end of its window for the longest encoding, so
by locality it is the one that the sweep has there.
-/

namespace ElfAtlas

namespace CodeWalk

@[simp] theorem ofList_nil (wanted : Option Nat) : ofList [] wanted = ⟨[], wanted, none⟩ := by
  cases wanted <;> simp [ofList]

/-- A walk that goes on after `is` with what is still wanted is one walk over both lists. -/
theorem ofList_append (is js : List Instruction) (wanted : Option Nat) :
    (ofList js (ofList is wanted).wanted).after (ofList is wanted).seen = ofList (is ++ js) wanted := by
  cases wanted with
  | none => rfl
  | some n =>
      simp only [ofList, after, List.take_append, List.length_append, Nat.sub_add_eq]

/-- Once nothing more is wanted, further instructions are not seen. -/
theorem ofList_append_of_wanted {is : List Instruction} {wanted : Option Nat}
    (h : (ofList is wanted).wanted = some 0) (js : List Instruction) :
    ofList (is ++ js) wanted = ofList is wanted := by
  cases wanted with
  | none => simp [ofList] at h
  | some n =>
      simp only [ofList, Option.some.injEq] at h
      simp [ofList, List.take_append, h, Nat.sub_add_eq]

theorem isOver_ofList {is : List Instruction} {wanted : Option Nat} :
    (ofList is wanted).isOver = true ↔ (ofList is wanted).wanted = some 0 := by
  simp [isOver]

end CodeWalk

namespace Analysis

variable {σ δ : Type} {e : Engine σ δ} {f : PureDecoder} {a : Analysis} {arch : Architecture}

/-! ### Where a window ends -/

section Windowed

variable {seam : Instruction → Option (Option Nat)} {stop n : Nat} {i : Instruction}

theorem windowed_nil : windowed seam stop [] = ([], some stop) := rfl

theorem windowed_cons_of_seam (h : seam i = some (some n)) (is : List Instruction) :
    windowed seam stop (i :: is) = ([], some n) := by
  simp [windowed, h]

theorem windowed_cons_of_none (h : seam i = some none) (is : List Instruction) :
    windowed seam stop (i :: is) =
      (i :: (windowed seam stop is).1, (windowed seam stop is).2) := by
  simp [windowed, h]

theorem windowed_of_no_seam (stop : Nat) (is : List Instruction) :
    windowed (fun _ => some none) stop is = (is, some stop) := by
  induction is with
  | nil => rfl
  | cons i is ih => rw [windowed_cons_of_none rfl, ih]

end Windowed

/-- With room for the longest encoding a window has the instruction that the whole code has. -/
theorem item_window (hl : f.IsLocal arch) (address : UInt64) {code : List UInt8} {n : Nat}
    (hroom : arch.maxLength ≤ n) (hn : n ≤ code.length) :
    f.item arch (code.take n) address = f.item arch code address := by
  refine hl.item_eq address ?_ (by omega) ?_
  · rw [List.length_take]
    omega
  · rw [List.take_take, Nat.min_eq_left hroom]

/-- A window that starts at `pos` is left for a later place. What is seen of it, followed by the sweep
from there, is the sweep from the place `start` in it. -/
structure GoesOn (f : PureDecoder) (arch : Architecture) (base : UInt64) (code : List UInt8)
    (pos start next : Nat) (seen : List Instruction) : Prop where
  forward : pos < next
  inside : next ≤ code.length
  sweep : f.sweep arch (base + UInt64.ofNat start) (code.drop start) =
    seen ++ f.sweep arch (base + UInt64.ofNat next) (code.drop next)

/-- The induction is on the bytes of the window behind a boundary `k` bytes into it, where the window is
not the last one. The window may end exactly there; else the next instruction is too near its end, or
it is the one of the whole region and the boundary moves behind it. -/
theorem goesOn_window (hf : f.IsFaithful) (hl : f.IsLocal arch) (region : CodeRegion)
    (code : List UInt8) (pos taken : Nat) (hsize : code.length < UInt64.size)
    (htaken : arch.maxLength ≤ taken) (hstop : pos + taken ≤ code.length) (k : Nat)
    (hk : k ≤ taken) :
    ∃ seen next,
      windowed (seam? region arch.maxLength pos taken) (pos + taken)
          (f.sweep arch (region.base + UInt64.ofNat (pos + k))
            ((code.drop (pos + k)).take (taken - k))) =
        (seen, some next) ∧
      GoesOn f arch region.base code pos (pos + k) next seen := by
  have hlongest : 0 < arch.maxLength := by cases arch <;> decide
  induction hn : taken - k using Nat.strongRecOn generalizing k with
  | ind n ih =>
      subst hn
      by_cases hend : k = taken
      · subst hend
        rw [Nat.sub_self, List.take_zero, PureDecoder.sweep_nil, windowed_nil]
        exact ⟨[], pos + k, rfl, by omega, hstop, (List.nil_append _).symm⟩
      · have hlen : ((code.drop (pos + k)).take (taken - k)).length = taken - k := by
          rw [List.length_take, List.length_drop]
          omega
        have hwindow : (code.drop (pos + k)).take (taken - k) ≠ [] := by
          rw [← List.length_pos_iff]
          omega
        have hrest : code.drop (pos + k) ≠ [] := by
          rw [← List.length_pos_iff, List.length_drop]
          omega
        have hseam : seam? region arch.maxLength pos taken
              (f.item arch ((code.drop (pos + k)).take (taken - k))
                (region.base + UInt64.ofNat (pos + k))) =
            some (if 0 < k ∧ taken - k < arch.maxLength then some (pos + k) else none) :=
          seam?_of_address (PureDecoder.address_item hf arch _ _) hk (by omega)
        rw [f.sweep_of_ne_nil arch _ hwindow]
        by_cases hcut : 0 < k ∧ taken - k < arch.maxLength
        · rw [if_pos hcut] at hseam
          rw [windowed_cons_of_seam hseam]
          exact ⟨[], pos + k, rfl, by omega, by omega, (List.nil_append _).symm⟩
        · rw [if_neg hcut] at hseam
          have hi := f.length_item arch (region.base + UInt64.ofNat (pos + k)) hwindow
          have hitem := item_window hl (region.base + UInt64.ofNat (pos + k))
            (show arch.maxLength ≤ taken - k by omega)
            (show taken - k ≤ (code.drop (pos + k)).length by rw [List.length_drop]; omega)
          rw [windowed_cons_of_none hseam]
          rw [hitem] at hi ⊢
          have hsweep := f.sweep_of_ne_nil arch (region.base + UInt64.ofNat (pos + k)) hrest
          generalize f.item arch (code.drop (pos + k))
            (region.base + UInt64.ofNat (pos + k)) = i at hi hsweep ⊢
          obtain ⟨seen, next, hwindowed, hgoes⟩ :=
            ih (taken - (k + i.length)) (by omega) (k + i.length) (by omega) rfl
          have hlater := hgoes.sweep
          rw [← Nat.add_assoc, UInt64.ofNat_add, ← UInt64.add_assoc] at hwindowed hlater
          rw [List.drop_take, List.drop_drop, Nat.sub_sub, hwindowed]
          refine ⟨i :: seen, next, rfl, hgoes.forward, hgoes.inside, ?_⟩
          rw [hsweep, List.drop_drop, hlater, List.cons_append]

/-- What any window contributes, the last one of a region included. -/
theorem goesOn_windowed (hf : f.IsFaithful) (hl : f.IsLocal arch) {region : CodeRegion}
    {code : List UInt8} (hcode : code.length = region.length)
    (hsize : region.length < UInt64.size)
    (hwindow : arch.maxLength ≤ a.config.disasm.windowBytes.toNat) {pos : Nat}
    (hpos : pos < region.length) :
    ∃ seen next,
      windowed (a.seamAt? arch region pos) (pos + a.taken region pos)
          (f.sweep arch (region.base + UInt64.ofNat pos)
            ((code.drop pos).take (a.taken region pos))) =
        (seen, some next) ∧
      GoesOn f arch region.base code pos pos next seen := by
  by_cases hlast : a.taken region pos = region.length - pos
  · have hseam : a.seamAt? arch region pos = fun _ => some none := by
      funext i
      rw [seamAt?, if_pos hlast]
    have hall : (code.drop pos).take (a.taken region pos) = code.drop pos := by
      refine List.take_of_length_le ?_
      rw [List.length_drop]
      omega
    have hend : code.drop (pos + a.taken region pos) = [] := by
      refine List.drop_eq_nil_of_le ?_
      omega
    rw [hseam, windowed_of_no_seam, hall]
    refine ⟨_, _, rfl, by omega, by omega, ?_⟩
    rw [hend, PureDecoder.sweep_nil, List.append_nil]
  · have htaken : a.taken region pos = a.config.disasm.windowBytes.toNat := by
      rw [taken] at hlast ⊢
      omega
    have hseam : a.seamAt? arch region pos =
        seam? region arch.maxLength pos (a.taken region pos) := by
      funext i
      rw [seamAt?, if_neg hlast]
    have hle : a.taken region pos ≤ region.length - pos := Nat.min_le_left _ _
    have hmain := goesOn_window hf hl region code pos (a.taken region pos) (by omega) (by omega)
      (by omega) 0 (Nat.zero_le _)
    rw [hseam]
    rwa [Nat.add_zero, Nat.sub_zero] at hmain

/-! ### Regions -/

theorem walkRegion_of_le {region : CodeRegion} {pos : Nat} (h : region.length ≤ pos)
    (wanted : Option Nat) (shared : σ) :
    walkRegion e a arch region pos wanted shared = (CodeWalk.ofList [] wanted, shared) := by
  rw [walkRegion, dif_neg (by omega), CodeWalk.ofList_nil]

/-- One turn of the loop over the windows of a region. -/
theorem walkRegion_of_lt {region : CodeRegion} {pos next : Nat} {seen : List Instruction}
    (wanted : Option Nat) {shared shared' : σ} {s : Stream δ} (hpos : pos < region.length)
    (hstream : streamAt e a arch (region.offset + pos) (a.taken region pos)
      (region.base + UInt64.ofNat pos) shared = (.ok s, shared'))
    (hshared : (s.drain e shared').2.2 = shared')
    (hwindowed : windowed (a.seamAt? arch region pos) (pos + a.taken region pos)
      (s.drain e shared').1 = (seen, some next))
    (hnext : pos < next) :
    walkRegion e a arch region pos wanted shared =
      let first := CodeWalk.ofList seen wanted
      if first.isOver then (first, shared')
      else
        ((walkRegion e a arch region next first.wanted shared').1.after first.seen,
          (walkRegion e a arch region next first.wanted shared').2) := by
  rw [walkRegion, dif_pos hpos]
  simp only [hstream, hshared, hwindowed, hnext, dite_true]

/-- The walk from `pos` on sees the sweep from `pos` on, if it starts at an instruction boundary of
the sweep over the region; that it does is what `goesOn_windowed` keeps up from window to window. -/
theorem walkRegion_eq_ofList (hf : f.IsFaithful) (hl : f.IsLocal arch) {region : CodeRegion}
    (himage : a.image.size < UInt64.size)
    (hfits : region.offset + region.length ≤ a.image.size)
    (hsize : region.length < UInt64.size)
    (hwindow : arch.maxLength ≤ a.config.disasm.windowBytes.toNat) {shared : σ}
    (hs : e.Serves arch a.header.order f shared) (pos : Nat) (wanted : Option Nat) :
    ∃ shared', e.Serves arch a.header.order f shared' ∧
      walkRegion e a arch region pos wanted shared =
        (CodeWalk.ofList (f.sweep arch (region.base + UInt64.ofNat pos)
          ((a.codeAt region.offset region.length).drop pos)) wanted, shared') := by
  have hcode : (a.codeAt region.offset region.length).length = region.length :=
    length_codeAt hfits
  induction hn : region.length - pos using Nat.strongRecOn generalizing pos wanted shared with
  | ind n ih =>
      by_cases hpos : pos < region.length
      · have hle : a.taken region pos ≤ region.length - pos := Nat.min_le_left _ _
        have hbytes : a.codeAt (region.offset + pos) (a.taken region pos) =
            ((a.codeAt region.offset region.length).drop pos).take (a.taken region pos) := by
          rw [drop_codeAt, take_codeAt a _ hle]
        obtain ⟨s, shared', hstream, hs', hdrain, hshared⟩ := streamAt_eq_sweep hs
          (region.base + UInt64.ofNat pos)
          (show region.offset + pos + a.taken region pos ≤ a.image.size by omega) himage
        obtain ⟨seen, next, hwindowed, hgoes⟩ := goesOn_windowed hf hl hcode hsize hwindow hpos
        rw [← hbytes, ← hdrain] at hwindowed
        have hlt := hgoes.forward
        rw [walkRegion_of_lt wanted hpos hstream hshared hwindowed hlt, hgoes.sweep]
        simp only
        split
        · rename_i hover
          refine ⟨shared', hs', ?_⟩
          rw [CodeWalk.ofList_append_of_wanted (CodeWalk.isOver_ofList.1 hover)]
        · obtain ⟨shared'', hs'', hrest⟩ := ih (region.length - next) (by omega) hs' next _ rfl
          refine ⟨shared'', hs'', ?_⟩
          rw [hrest, CodeWalk.ofList_append]
      · refine ⟨shared, hs, ?_⟩
        rw [walkRegion_of_le (by omega), List.drop_eq_nil_of_le (by omega),
          PureDecoder.sweep_nil]

/-- All instructions of code regions, each region from one stream over the whole of it. -/
def sweepRegions (e : Engine σ δ) (a : Analysis) (arch : Architecture) :
    List CodeRegion → σ → Except Fault (List Instruction) × σ
  | [], shared => (.ok [], shared)
  | region :: rest, shared =>
    match streamAt e a arch region.offset region.length region.base shared with
    | (.error fault, shared) => (.error fault, shared)
    | (.ok stream, shared) =>
      let (is, _, shared) := stream.drain e shared
      let (more, shared) := sweepRegions e a arch rest shared
      (more.map (is ++ ·), shared)

def regionSweep (f : PureDecoder) (a : Analysis) (arch : Architecture) (region : CodeRegion) :
    List Instruction :=
  f.sweep arch region.base (a.codeAt region.offset region.length)

theorem sweepRegions_eq (himage : a.image.size < UInt64.size) {regions : List CodeRegion}
    (hfits : ∀ region ∈ regions, a.Fits region) {shared : σ}
    (hs : e.Serves arch a.header.order f shared) :
    (sweepRegions e a arch regions shared).1 = .ok (regions.flatMap (regionSweep f a arch)) := by
  induction regions generalizing shared with
  | nil => rfl
  | cons region rest ih =>
      obtain ⟨hregion, hrest⟩ := List.forall_mem_cons.1 hfits
      obtain ⟨s, shared', hstream, hs', hdrain, hshared⟩ :=
        streamAt_eq_sweep hs region.base hregion.1 himage
      have hmore := ih hrest hs'
      rw [sweepRegions]
      simp only [hstream, hdrain, hshared, hmore, Except.map]
      rfl

theorem walkRegions_eq_ofList (hf : f.IsFaithful) (hl : f.IsLocal arch)
    (himage : a.image.size < UInt64.size)
    (hwindow : arch.maxLength ≤ a.config.disasm.windowBytes.toNat) {regions : List CodeRegion}
    (hfits : ∀ region ∈ regions, a.Fits region) {shared : σ}
    (hs : e.Serves arch a.header.order f shared) (wanted : Option Nat) :
    (walkRegions e a arch regions wanted shared).1 =
      CodeWalk.ofList (regions.flatMap (regionSweep f a arch)) wanted := by
  induction regions generalizing shared wanted with
  | nil => rw [walkRegions, List.flatMap_nil, CodeWalk.ofList_nil]
  | cons region rest ih =>
      obtain ⟨hregion, hrest⟩ := List.forall_mem_cons.1 hfits
      obtain ⟨shared', hs', hwalk⟩ :=
        walkRegion_eq_ofList hf hl himage hregion.1 hregion.2 hwindow hs 0 wanted
      have hstart : region.base + UInt64.ofNat 0 = region.base := UInt64.add_zero _
      rw [List.drop_zero, hstart, ← regionSweep] at hwalk
      rw [walkRegions, hwalk, List.flatMap_cons]
      simp only
      split
      · rename_i hover
        rw [CodeWalk.ofList_append_of_wanted (CodeWalk.isOver_ofList.1 hover)]
      · rw [ih hrest hs', CodeWalk.ofList_append]

theorem walkCode_eq_ofList (hf : f.IsFaithful) (hl : f.IsLocal arch)
    (himage : a.image.size < UInt64.size)
    (hwindow : Config.minWindowBytes ≤ a.config.disasm.windowBytes) {shared : σ}
    (hs : e.Serves arch a.header.order f shared) (wanted : Option Nat) :
    (walkCode e a arch wanted shared).1 =
      CodeWalk.ofList (a.codeRegions.flatMap (regionSweep f a arch)) wanted := by
  have hlongest : arch.maxLength ≤ a.config.disasm.windowBytes.toNat := by
    have hmin : Config.minWindowBytes.toNat ≤ a.config.disasm.windowBytes.toNat :=
      UInt64.le_iff_toNat_le.1 hwindow
    have h16 : Config.minWindowBytes.toNat = 16 := rfl
    have hmax : arch.maxLength ≤ 15 := by cases arch <;> decide
    omega
  exact walkRegions_eq_ofList hf hl himage hlongest (fun _ => fits_of_mem_codeRegions) hs wanted

end Analysis

theorem Config.minWindowBytes_le_of_validate {c : Config} (h : c.validate = .ok ()) :
    minWindowBytes ≤ c.disasm.windowBytes := by
  rw [validate] at h
  split at h
  · rename_i hnone
    have hrule := List.find?_eq_none.1 hnone
      (fun c => decide (minWindowBytes ≤ c.disasm.windowBytes),
        "disasm.window_bytes must be at least 16") (by simp [rules])
    simpa using hrule
  · simp at h

namespace Analysis

variable {σ δ : Type}

def withWindow (a : Analysis) (window : UInt64) : Analysis :=
  { a with config := { a.config with disasm := { a.config.disasm with windowBytes := window } } }

/-- With decoders that always open, bear the address they are given and look no further than the
longest instruction, the walk over all code ends without a fault and sees the instructions of one
stream over each whole region, or as many of them as are wanted. So neither the cross-references nor
the matches in code depend on the size of the window. The size of an image in memory is a word. -/
theorem walkCode_eq_sweepRegions {e : Engine σ δ} {a : Analysis} {f : Architecture → PureDecoder}
    {shared : σ} (himage : a.image.size < UInt64.size) (hconfig : a.config.validate = .ok ())
    (hs : ∀ arch, a.architecture = .ok arch → e.Serves arch a.header.order (f arch) shared)
    (hf : ∀ arch, a.architecture = .ok arch → (f arch).IsFaithful)
    (hl : ∀ arch, a.architecture = .ok arch → (f arch).IsLocal arch) :
    (∀ arch, a.architecture = .ok arch →
      ∃ whole, (sweepRegions e a arch a.codeRegions shared).1 = .ok whole ∧
        (walkCode e a arch none shared).1 = ⟨whole, none, none⟩ ∧
        ∀ k, (walkCode e a arch (some k) shared).1 =
          ⟨whole.take k, some (k - whole.length), none⟩) ∧
    ∀ window, Config.minWindowBytes ≤ window →
      ((a.withWindow window).buildXrefs e shared).1 = (a.buildXrefs e shared).1 ∧
      ∀ needle filter, ((a.withWindow window).searchCode e needle filter shared).1 =
        (a.searchCode e needle filter shared).1 := by
  have hwindow := Config.minWindowBytes_le_of_validate hconfig
  refine ⟨fun arch harch => ?_, fun window hw => ?_⟩
  · have hwalk := walkCode_eq_ofList (hf arch harch) (hl arch harch) himage hwindow (hs arch harch)
    exact ⟨_, sweepRegions_eq himage (fun _ => fits_of_mem_codeRegions) (hs arch harch),
      hwalk none, fun k => hwalk (some k)⟩
  · have hwalk (arch : Architecture) (harch : a.architecture = .ok arch) (wanted : Option Nat) :
        (walkCode e (a.withWindow window) arch wanted shared).1 =
          (walkCode e a arch wanted shared).1 := by
      rw [walkCode_eq_ofList (hf arch harch) (hl arch harch) himage hwindow (hs arch harch)]
      exact walkCode_eq_ofList (a := a.withWindow window) (hf arch harch) (hl arch harch) himage hw
        (hs arch harch) wanted
    have harch' : (a.withWindow window).architecture = a.architecture := rfl
    cases harch : a.architecture with
    | error fault =>
        refine ⟨?_, fun needle filter => ?_⟩
        · simp only [buildXrefs, harch', harch]
          rfl
        · simp only [searchCode, harch', harch]
    | ok arch =>
        refine ⟨?_, fun needle filter => ?_⟩
        · have hnone := hwalk arch harch none
          simp only [buildXrefs, harch', harch, hnone]
          obtain _ | _ | _ := (walkCode e a arch none shared).1.halt <;> rfl
        · have hsome := hwalk arch harch (some a.config.search.maxInstructions.toNat)
          have hmax : (a.withWindow window).config.search.maxInstructions =
            a.config.search.maxInstructions := rfl
          simp only [searchCode, harch', harch, hmax, hsome]
          split
          · split <;> rfl
          · rfl

/-- Six words across the top of the address space, in windows of eighteen bytes that cut the fifth. -/
theorem walkCode_eq_sweepRegions_wrapping :
    let a := ofCode 183 { disasm := { windowBytes := 18 } } 0xfffffffffffffff4 []
      (List.replicate 12 1 ++ List.replicate 4 0 ++ List.replicate 4 0xff ++ List.replicate 4 2)
    let e := PlainEngine.words "word" fun _ => true
    a.image.size < UInt64.size ∧ a.config.validate = .ok () ∧ a.architecture = .ok .arm64 ∧
      ∃ whole, (sweepRegions e a .arm64 a.codeRegions none).1 = .ok whole ∧
        (walkCode e a .arm64 none none).1 = ⟨whole, none, none⟩ ∧
        ∀ k, (walkCode e a .arm64 (some k) none).1 =
          ⟨whole.take k, some (k - whole.length), none⟩ := by
  intro a e
  have himage : a.image.size < UInt64.size := by decide
  have hconfig : a.config.validate = .ok () := rfl
  have harch : a.architecture = .ok .arm64 := rfl
  have hserves (arch : Architecture) :
      e.Serves arch a.header.order (PlainEngine.decodeWord .little) none :=
    Engine.serves_ofDecoder "word" (fun _ order => PlainEngine.decodeWord order) .little rfl
  have hlocal (arch : Architecture) (h : a.architecture = .ok arch) :
      PureDecoder.IsLocal (PlainEngine.decodeWord .little) arch := by
    rw [harch] at h
    cases h
    exact PlainEngine.decodeWord_isLocal .little rfl
  have hmain := walkCode_eq_sweepRegions (f := fun _ => PlainEngine.decodeWord .little) himage hconfig
    (fun arch _ => hserves arch) (fun _ _ => PlainEngine.decodeWord_isFaithful .little) hlocal
  exact ⟨himage, hconfig, harch, hmain.1 .arm64 harch⟩

end Analysis

end ElfAtlas
