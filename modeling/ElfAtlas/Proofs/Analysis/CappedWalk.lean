import ElfAtlas.Analysis.CodeWalk
import ElfAtlas.Proofs.Code.Sweep

/-!
A walk that stops after so many instructions sees the front of the walk that does not stop: until then
both open the same decoders in the same order. If no opening depends on those before it, what a walk sees
does not depend on them either.
-/

namespace ElfAtlas

variable {σ δ : Type}

namespace CodeWalk

/-- `x` goes as far as `y`, or stops once it has seen `k` instructions. -/
structure IsCut (k : Nat) (x y : CodeWalk × σ) : Prop where
  seen : x.1.seen = y.1.seen.take k
  wanted : x.1.wanted = some (k - y.1.seen.length)
  uncut : y.1.wanted = none
  rest : y.1.seen.length < k → x.1.halt = y.1.halt ∧ x.2 = y.2

namespace IsCut

variable {k : Nat} {x y : CodeWalk × σ}

/-- Before anything is seen. -/
theorem start (k : Nat) (halt : Option Halt) (shared : σ) :
    IsCut k (⟨[], some k, halt⟩, shared) (⟨[], none, halt⟩, shared) where
  seen := by rw [List.take_nil]
  wanted := rfl
  uncut := rfl
  rest _ := ⟨rfl, rfl⟩

theorem ofList (k : Nat) (is : List Instruction) (shared : σ) :
    IsCut k (CodeWalk.ofList is (some k), shared) (CodeWalk.ofList is none, shared) where
  seen := rfl
  wanted := rfl
  uncut := rfl
  rest _ := ⟨rfl, rfl⟩

/-- Both walks stop for one reason. -/
theorem stop (h : IsCut k x y) (halt : Option Halt) :
    IsCut k ({ x.1 with halt }, x.2) ({ y.1 with halt }, y.2) where
  seen := h.seen
  wanted := h.wanted
  uncut := h.uncut
  rest hlt := ⟨rfl, (h.rest hlt).2⟩

/-- Why a walk stops after `k` instructions does not count. -/
theorem stop_of_le (h : IsCut k x y) (hk : k ≤ y.1.seen.length) (halt : Option Halt) :
    IsCut k x ({ y.1 with halt }, y.2) where
  seen := h.seen
  wanted := h.wanted
  uncut := h.uncut
  rest hlt := absurd hlt (Nat.not_lt.2 hk)

/-- What is seen after `k` instructions does not count. -/
theorem append_of_le (h : IsCut k x y) (hk : k ≤ y.1.seen.length) {more : CodeWalk × σ}
    (hmore : more.1.wanted = none) : IsCut k x (more.1.after y.1.seen, more.2) where
  seen := by
    rw [h.seen, CodeWalk.after, List.take_append_of_le_length hk]
  wanted := by
    rw [h.wanted, CodeWalk.after, List.length_append]
    congr 1
    omega
  uncut := hmore
  rest hlt := by
    rw [CodeWalk.after, List.length_append] at hlt
    omega

/-- Before `k` instructions have been seen both walks go on. -/
theorem append_of_lt (h : IsCut k x y) (hk : y.1.seen.length < k) {more more' : CodeWalk × σ}
    (hmore : IsCut (k - y.1.seen.length) more more') :
    IsCut k (more.1.after x.1.seen, more.2) (more'.1.after y.1.seen, more'.2) where
  seen := by
    rw [CodeWalk.after, CodeWalk.after, List.take_append, hmore.seen, h.seen]
  wanted := by
    rw [CodeWalk.after, CodeWalk.after, hmore.wanted, List.length_append, Nat.sub_add_eq]
  uncut := hmore.uncut
  rest hlt := by
    rw [CodeWalk.after, List.length_append] at hlt
    exact hmore.rest (by omega)

theorem isOver_of_le (h : IsCut k x y) (hk : k ≤ y.1.seen.length) : x.1.isOver = true := by
  rw [isOver, h.wanted, Nat.sub_eq_zero_of_le hk]
  simp

theorem isOver_of_lt (h : IsCut k x y) (hk : y.1.seen.length < k) : x.1.isOver = y.1.isOver := by
  have hwanted : k - y.1.seen.length ≠ 0 := by omega
  rw [isOver, isOver, h.wanted, h.uncut, (h.rest hk).1]
  simp [hwanted]

end IsCut

end CodeWalk

namespace Analysis

open CodeWalk

variable (e : Engine σ δ) (a : Analysis) (arch : Architecture)

theorem isCut_walkRegion (region : CodeRegion) (pos k : Nat) (shared : σ) :
    IsCut k (walkRegion e a arch region pos (some k) shared)
      (walkRegion e a arch region pos none shared) := by
  induction hn : region.length - pos using Nat.strongRecOn generalizing pos k shared with
  | ind n ih =>
      rw [walkRegion, walkRegion]
      by_cases hpos : pos < region.length
      · rw [dif_pos hpos, dif_pos hpos]
        dsimp only
        generalize streamAt e a arch (region.offset + pos) (a.taken region pos)
          (region.base + UInt64.ofNat pos) shared = opening
        obtain ⟨fault | stream, shared⟩ := opening
        · exact .start k (some (.fault fault)) shared
        · dsimp only
          generalize stream.drain e shared = drained
          obtain ⟨is, -, shared⟩ := drained
          dsimp only
          generalize windowed (a.seamAt? arch region pos) (pos + a.taken region pos) is = window
          obtain ⟨seen, next⟩ := window
          have hfirst := IsCut.ofList k seen shared
          have hgoes : (CodeWalk.ofList seen none).isOver = false := rfl
          rw [hgoes, if_neg Bool.false_ne_true]
          by_cases hk : k ≤ seen.length
          · rw [if_pos (hfirst.isOver_of_le hk)]
            cases next with
            | none => exact hfirst.stop_of_le hk (some .overflow)
            | some next =>
                dsimp only
                split
                · exact hfirst.append_of_le hk (ih _ (by omega) next 0 shared rfl).uncut
                · exact hfirst
          · have hlt : seen.length < k := by omega
            rw [hfirst.isOver_of_lt hlt, hgoes, if_neg Bool.false_ne_true]
            cases next with
            | none => exact hfirst.stop (some .overflow)
            | some next =>
                dsimp only
                split
                · exact hfirst.append_of_lt hlt (ih _ (by omega) next _ shared rfl)
                · exact hfirst
      · rw [dif_neg hpos, dif_neg hpos]
        exact .start k none shared

theorem isCut_walkRegions (regions : List CodeRegion) (k : Nat) (shared : σ) :
    IsCut k (walkRegions e a arch regions (some k) shared)
      (walkRegions e a arch regions none shared) := by
  induction regions generalizing k shared with
  | nil => exact .start k none shared
  | cons region rest ih =>
      have hregion := isCut_walkRegion e a arch region 0 k shared
      rw [walkRegions, walkRegions]
      generalize walkRegion e a arch region 0 (some k) shared = x at hregion ⊢
      generalize walkRegion e a arch region 0 none shared = y at hregion ⊢
      simp only
      by_cases hk : k ≤ y.1.seen.length
      · rw [if_pos (hregion.isOver_of_le hk)]
        split
        · exact hregion
        · rw [hregion.uncut]
          exact hregion.append_of_le hk (ih 0 _).uncut
      · have hlt : y.1.seen.length < k := by omega
        rw [hregion.isOver_of_lt hlt]
        split
        · exact hregion
        · rw [hregion.uncut, hregion.wanted, (hregion.rest hlt).2]
          exact hregion.append_of_lt hlt (ih _ _)

/-- The walk that wants `k` instructions sees the first `k` of all. -/
theorem seen_walkCode_some (k : Nat) (shared : σ) :
    (walkCode e a arch (some k) shared).1.seen =
      (walkCode e a arch none shared).1.seen.take k :=
  (isCut_walkRegions e a arch a.codeRegions k shared).seen

end Analysis

/-- Two results that differ in nothing but the state behind them. -/
theorem exists_of_fst_eq {α : Type} {x y : α × σ} (h : x.1 = y.1) :
    ∃ a shared shared', x = (a, shared) ∧ y = (a, shared') :=
  ⟨x.1, x.2, y.2, rfl, Prod.ext h.symm rfl⟩

namespace Engine

/-- The decoder that is opened, or the reason why there is none, does not depend on earlier openings. -/
def OpensAlike (e : Engine σ δ) : Prop :=
  ∀ arch order shared shared', (e.start arch order shared).1 = (e.start arch order shared').1

namespace OpensAlike

variable {e : Engine σ δ} (h : e.OpensAlike)

include h

theorem next_eq (s : Stream δ) (shared shared' : σ) :
    (s.next e shared).1 = (s.next e shared').1 ∧ (s.next e shared).2.1 = (s.next e shared').2.1 := by
  rw [Stream.next, Stream.next]
  by_cases hrest : s.rest.isEmpty = true
  · rw [if_pos hrest, if_pos hrest]
    exact ⟨rfl, rfl⟩
  · rw [if_neg hrest, if_neg hrest]
    cases s.decoder with
    | some d => exact ⟨rfl, rfl⟩
    | none =>
        obtain ⟨opening, shared₁, shared₂, hx, hy⟩ :=
          exists_of_fst_eq (h s.arch s.order shared shared')
        rw [hx, hy]
        cases opening with
        | ok d => exact ⟨rfl, rfl⟩
        | error fault => exact ⟨rfl, rfl⟩

theorem drain_eq (s : Stream δ) (shared shared' : σ) :
    (s.drain e shared).1 = (s.drain e shared').1 := by
  induction hn : s.rest.length using Nat.strongRecOn generalizing s shared shared' with
  | ind n ih =>
      have hnext := h.next_eq s shared shared'
      rcases hx : s.next e shared with ⟨answer, t, shared₁⟩
      rcases hy : s.next e shared' with ⟨answer', t', shared₂⟩
      rw [hx, hy] at hnext
      obtain ⟨rfl, rfl⟩ : answer = answer' ∧ t = t' := hnext
      cases answer with
      | none => rw [Stream.drain_of_none hx, Stream.drain_of_none hy]
      | some i =>
          have hless := Stream.length_rest_next hx
          rw [Stream.drain_of_some hx, Stream.drain_of_some hy]
          exact congrArg (i :: ·) (ih _ (by omega) t shared₁ shared₂ rfl)

theorem streamAt_eq (a : Analysis) (arch : Architecture) (offset length : Nat) (base : UInt64)
    (shared shared' : σ) :
    (a.streamAt e arch offset length base shared).1 =
      (a.streamAt e arch offset length base shared').1 := by
  rw [Analysis.streamAt, Analysis.streamAt]
  cases checkedAdd offset length "disassembly end" with
  | error fault => rfl
  | ok stop =>
      dsimp only
      rw [Stream.ofRange, Stream.ofRange]
      split
      · rfl
      · obtain ⟨opening, shared₁, shared₂, hx, hy⟩ :=
          exists_of_fst_eq (h arch a.header.order shared shared')
        rw [Stream.start, Stream.start, hx, hy]
        cases opening with
        | ok d => rfl
        | error fault => rfl

theorem walkRegion_eq (a : Analysis) (arch : Architecture) (region : CodeRegion) (pos : Nat)
    (wanted : Option Nat) (shared shared' : σ) :
    (a.walkRegion e arch region pos wanted shared).1 =
      (a.walkRegion e arch region pos wanted shared').1 := by
  induction hn : region.length - pos using Nat.strongRecOn
    generalizing pos wanted shared shared' with
  | ind n ih =>
      rw [Analysis.walkRegion, Analysis.walkRegion]
      by_cases hpos : pos < region.length
      · obtain ⟨opening, shared₁, shared₂, hx, hy⟩ :=
          exists_of_fst_eq (h.streamAt_eq a arch (region.offset + pos) (a.taken region pos)
            (region.base + UInt64.ofNat pos) shared shared')
        rw [dif_pos hpos, dif_pos hpos]
        dsimp only
        rw [hx, hy]
        cases opening with
        | error fault => rfl
        | ok stream =>
            obtain ⟨is, rest, rest', hdrain, hdrain'⟩ :=
              exists_of_fst_eq (h.drain_eq stream shared₁ shared₂)
            dsimp only
            rw [hdrain, hdrain']
            dsimp only
            split
            · rfl
            · split
              · rfl
              · split
                · exact congrArg (CodeWalk.after _) (ih _ (by omega) _ _ rest.2 rest'.2 rfl)
                · rfl
      · rw [dif_neg hpos, dif_neg hpos]

theorem walkRegions_eq (a : Analysis) (arch : Architecture) (regions : List CodeRegion)
    (wanted : Option Nat) (shared shared' : σ) :
    (a.walkRegions e arch regions wanted shared).1 =
      (a.walkRegions e arch regions wanted shared').1 := by
  induction regions generalizing wanted shared shared' with
  | nil => rfl
  | cons region rest ih =>
      obtain ⟨w, shared₁, shared₂, hx, hy⟩ :=
        exists_of_fst_eq (h.walkRegion_eq a arch region 0 wanted shared shared')
      rw [Analysis.walkRegions, Analysis.walkRegions, hx, hy]
      dsimp only
      split
      · rfl
      · exact congrArg (CodeWalk.after w.seen) (ih w.wanted shared₁ shared₂)

theorem walkCode_eq (a : Analysis) (arch : Architecture) (wanted : Option Nat) (shared shared' : σ) :
    (a.walkCode e arch wanted shared).1 = (a.walkCode e arch wanted shared').1 :=
  h.walkRegions_eq a arch a.codeRegions wanted shared shared'

end OpensAlike

end Engine

end ElfAtlas
