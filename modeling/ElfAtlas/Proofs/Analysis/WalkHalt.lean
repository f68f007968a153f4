import ElfAtlas.Analysis.CodeWalk
import ElfAtlas.Proofs.Analysis.CodeBytes
import ElfAtlas.Proofs.Code.Tiling

/-!
Why a walk halts. It overflows only at an instruction behind the end of its window, and decoders whose
instructions bear the address they are asked at yield none there: the instructions of a window tile it.
With such decoders only a fault halts a walk.
-/

namespace ElfAtlas

@[simp] theorem CodeWalk.halt_ofList (is : List Instruction) (wanted : Option Nat) :
    (ofList is wanted).halt = none := by
  cases wanted <;> rfl

variable {σ δ : Type} {e : Engine σ δ}

namespace Engine

/-- Whatever the decoder is asked first, an instruction bears the address the decoder was asked at. -/
def IsFaithful (e : Engine σ δ) (d : δ) : Prop :=
  ∀ questions code address i, (e.decode (e.asked d questions) code address).1 = some i →
    i.address = address

theorem Answers.isFaithful {d : δ} {f : PureDecoder} (h : e.Answers d f) (hf : f.IsFaithful) :
    e.IsFaithful d := by
  intro questions code address i hi
  rw [h] at hi
  exact hf code address i hi

def OpensFaithful (e : Engine σ δ) : Prop :=
  ∀ arch order shared d shared', e.start arch order shared = (.ok d, shared') → e.IsFaithful d

end Engine

theorem Stream.Tiles.address_of_isFaithful {arch : Architecture} {d : δ} {base : UInt64}
    {code : List UInt8} {is : List Instruction} (h : Tiles e arch d base code is)
    (hd : e.IsFaithful d) {k : Nat} {i : Instruction} (hi : is[k]? = some i) :
    i.address = base + UInt64.ofNat (Instruction.totalLength (is.take k)) := by
  obtain hanswer | ⟨-, hbad, -⟩ := h.answer k i hi
  · exact hd _ _ _ i hanswer
  · rw [hbad]
    rfl

namespace Analysis

variable {a : Analysis} {arch : Architecture} {region : CodeRegion}

def Fits (a : Analysis) (region : CodeRegion) : Prop :=
  region.offset + region.length ≤ a.image.size ∧ region.length < UInt64.size

theorem fits_clampedRegion (a : Analysis) (offset length base : UInt64)
    (h : 0 < (a.clampedRegion offset length base).length) :
    a.Fits (a.clampedRegion offset length base) := by
  have hlength := length.toNat_lt
  simp only [clampedRegion, available] at h
  simp only [Fits, clampedRegion, available, UInt64.size]
  omega

theorem fits_of_mem_codeRegions {region : CodeRegion} (h : region ∈ a.codeRegions) :
    a.Fits region := by
  rw [codeRegions] at h
  split at h
  all_goals
    simp only [List.mem_filter, List.mem_map, decide_eq_true_eq] at h
    obtain ⟨⟨s, -, rfl⟩, hpos⟩ := h
    exact fits_clampedRegion a _ _ _ hpos

/-- The seam of an instruction `k` bytes into the window. Positions in a region are below 2^64, so
the address tells them even where addresses wrap around. -/
theorem seam?_of_address {region : CodeRegion} {longest pos taken k : Nat} {i : Instruction}
    (hi : i.address = region.base + UInt64.ofNat (pos + k)) (hk : k ≤ taken)
    (hpos : pos + k < UInt64.size) :
    seam? region longest pos taken i =
      some (if 0 < k ∧ taken - k < longest then some (pos + k) else none) := by
  have hstart : (i.address - region.base).toNat = pos + k := by
    rw [hi, UInt64.add_comm, UInt64.add_sub_cancel, UInt64.toNat_ofNat', Nat.mod_eq_of_lt hpos]
  rw [seam?, hstart]
  by_cases hzero : k = 0
  · rw [if_neg (by omega), if_neg (by omega)]
  · rw [if_pos (by omega), if_pos (by omega), Nat.add_sub_cancel_left]
    simp only [Nat.pos_of_ne_zero hzero, true_and]

/-- What is seen of a window whose seams are known goes on somewhere. -/
theorem exists_windowed {seam : Instruction → Option (Option Nat)} {is : List Instruction}
    (h : ∀ i ∈ is, (seam i).isSome = true) (stop : Nat) :
    ∃ seen next, windowed seam stop is = (seen, some next) := by
  induction is with
  | nil => exact ⟨[], stop, rfl⟩
  | cons i is ih =>
      obtain ⟨hi, his⟩ := List.forall_mem_cons.1 h
      obtain ⟨start, hstart⟩ := Option.isSome_iff_exists.1 hi
      obtain ⟨seen, next, hrest⟩ := ih his
      cases start with
      | none => exact ⟨i :: seen, next, by simp [windowed, hstart, hrest]⟩
      | some start => exact ⟨[], start, by simp [windowed, hstart]⟩

/-- The instructions of a stream over a range of the image tile the range. -/
theorem tiles_of_streamAt {offset length : Nat} {base : UInt64} {shared shared' : σ} {s : Stream δ}
    (hfits : offset + length ≤ a.image.size)
    (hstream : streamAt e a arch offset length base shared = (.ok s, shared')) :
    ∃ d, e.start arch a.header.order shared = (.ok d, shared') ∧
      Stream.Tiles e arch d base (a.image.extract offset (offset + length)).toList
        (s.drain e shared').1 := by
  rw [streamAt, checkedAdd] at hstream
  split at hstream
  · simp at hstream
  · rename_i stop hstop
    split at hstop
    · cases hstop
      rcases hopen : e.start arch a.header.order shared with ⟨fault | d, shared''⟩
      · rw [Stream.ofRange, if_neg (by omega), Stream.start, hopen] at hstream
        simp at hstream
      · obtain ⟨s', hrange, htiles, -⟩ :=
          Stream.tiles_ofRange base (Nat.le_add_right offset length) hfits hopen
        rw [hrange] at hstream
        cases hstream
        exact ⟨d, rfl, htiles⟩
    · cases hstop

theorem isSome_seamAt? (he : e.OpensFaithful) (hfits : a.Fits region) {pos : Nat}
    (hpos : pos < region.length) {shared shared' : σ} {s : Stream δ}
    (hstream : streamAt e a arch (region.offset + pos) (a.taken region pos)
      (region.base + UInt64.ofNat pos) shared = (.ok s, shared')) :
    ∀ i ∈ (s.drain e shared').1, (a.seamAt? arch region pos i).isSome = true := by
  obtain ⟨himage, hsize⟩ := hfits
  have htaken : a.taken region pos ≤ region.length - pos := Nat.min_le_left _ _
  obtain ⟨d, hopen, htiles⟩ := tiles_of_streamAt (by omega) hstream
  intro i hi
  obtain ⟨k, hk⟩ := List.getElem?_of_mem hi
  have haddress := htiles.address_of_isFaithful (he _ _ _ _ _ hopen) hk
  have hlength := htiles.length k i hk
  rw [UInt64.add_assoc, ← UInt64.ofNat_add] at haddress
  rw [Array.length_toList, Array.size_extract, Nat.min_eq_left (by omega)] at hlength
  rw [seamAt?]
  split
  · rfl
  · rw [seam?_of_address haddress (by omega) (by omega)]
    rfl

/-- From faithful decoders a walk over a region halts at a fault or not at all. -/
theorem halt_walkRegion_ne_overflow (he : e.OpensFaithful) (hfits : a.Fits region) (pos : Nat)
    (wanted : Option Nat) (shared : σ) :
    (walkRegion e a arch region pos wanted shared).1.halt ≠ some .overflow := by
  induction hn : region.length - pos using Nat.strongRecOn generalizing pos wanted shared with
  | ind n ih =>
      rw [walkRegion]
      by_cases hpos : pos < region.length
      · rw [dif_pos hpos]
        dsimp only
        rcases hstream : streamAt e a arch (region.offset + pos) (a.taken region pos)
          (region.base + UInt64.ofNat pos) shared with ⟨fault | stream, shared'⟩
        · simp
        · obtain ⟨seen, next, hwindowed⟩ :=
            exists_windowed (isSome_seamAt? he hfits hpos hstream) (pos + a.taken region pos)
          simp only [hwindowed]
          split
          · simp
          · split
            · exact ih _ (by omega) next _ _ rfl
            · simp
      · rw [dif_neg hpos]
        simp

theorem halt_walkRegions_ne_overflow (he : e.OpensFaithful) {regions : List CodeRegion}
    (hfits : ∀ region ∈ regions, a.Fits region) (wanted : Option Nat) (shared : σ) :
    (walkRegions e a arch regions wanted shared).1.halt ≠ some .overflow := by
  induction regions generalizing wanted shared with
  | nil => simp [walkRegions]
  | cons region rest ih =>
      obtain ⟨hregion, hrest⟩ := List.forall_mem_cons.1 hfits
      rw [walkRegions]
      simp only
      split
      · exact halt_walkRegion_ne_overflow he hregion 0 wanted shared
      · exact ih hrest _ _

theorem halt_walkCode_ne_overflow (he : e.OpensFaithful) (a : Analysis) (arch : Architecture)
    (wanted : Option Nat) (shared : σ) : (walkCode e a arch wanted shared).1.halt ≠ some .overflow :=
  halt_walkRegions_ne_overflow he (fun _ => fits_of_mem_codeRegions) wanted shared

end Analysis

end ElfAtlas
