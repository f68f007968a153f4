import ElfAtlas.Code.Stream

/-!
One linear sweep over code with a decoder that keeps no state. A stream from an engine that opens
such decoders yields the sweep over its bytes, whatever its decoder has been asked before.
-/

namespace ElfAtlas

namespace PureDecoder

def accepted? (f : PureDecoder) (code : List UInt8) (address : UInt64) : Option Instruction :=
  (f code address).filter (Stream.acceptable code)

def item (f : PureDecoder) (arch : Architecture) (code : List UInt8) (address : UInt64) :
    Instruction :=
  (f.accepted? code address).getD (.bad address (code.take arch.minLength))

theorem acceptable_iff {code : List UInt8} {i : Instruction} :
    Stream.acceptable code i = true ↔ 0 < i.length ∧ i.length ≤ code.length := by
  rw [Stream.acceptable, Bool.and_eq_true, decide_eq_true_eq, List.length_take]
  refine and_congr ?_ ?_
  · simp [Instruction.isEmpty, Instruction.length, List.length_pos_iff]
  · omega

theorem accepted?_eq_some_iff {f : PureDecoder} {code : List UInt8} {address : UInt64}
    {i : Instruction} :
    f.accepted? code address = some i ↔
      f code address = some i ∧ 0 < i.length ∧ i.length ≤ code.length := by
  rw [accepted?, Option.filter_eq_some_iff, acceptable_iff]

theorem item_of_accepted {f : PureDecoder} {arch : Architecture} {code : List UInt8}
    {address : UInt64} {i : Instruction} (h : f.accepted? code address = some i) :
    f.item arch code address = i := by
  rw [item, h, Option.getD_some]

theorem item_of_rejected {f : PureDecoder} {arch : Architecture} {code : List UInt8}
    {address : UInt64} (h : f.accepted? code address = none) :
    f.item arch code address = .bad address (code.take arch.minLength) := by
  rw [item, h, Option.getD_none]

theorem length_bad (address : UInt64) (bytes : List UInt8) :
    (Instruction.bad address bytes).length = bytes.length := rfl

theorem minLength_pos (arch : Architecture) : 0 < arch.minLength := by
  cases arch <;> decide

/-- An item makes progress and stays within the code. -/
theorem length_item (f : PureDecoder) (arch : Architecture) {code : List UInt8} (address : UInt64)
    (h : code ≠ []) :
    0 < (f.item arch code address).length ∧ (f.item arch code address).length ≤ code.length := by
  cases hf : f.accepted? code address with
  | some i =>
      rw [item_of_accepted hf]
      exact (accepted?_eq_some_iff.1 hf).2
  | none =>
      have hcode : 0 < code.length := List.length_pos_iff.2 h
      have hmin := minLength_pos arch
      rw [item_of_rejected hf, length_bad, List.length_take]
      omega

/-- All items of the code, one after the other; addresses wrap around. -/
def sweep (f : PureDecoder) (arch : Architecture) (address : UInt64) (code : List UInt8) :
    List Instruction :=
  if _h : code = [] then []
  else
    let i := f.item arch code address
    i :: f.sweep arch (address + UInt64.ofNat i.length) (code.drop i.length)
termination_by code.length
decreasing_by
  have := f.length_item arch address _h
  simp only [List.length_drop]
  omega

@[simp] theorem sweep_nil (f : PureDecoder) (arch : Architecture) (address : UInt64) :
    f.sweep arch address [] = [] := by
  rw [sweep, dif_pos rfl]

theorem sweep_of_ne_nil (f : PureDecoder) (arch : Architecture) (address : UInt64)
    {code : List UInt8} (h : code ≠ []) :
    f.sweep arch address code =
      f.item arch code address ::
        f.sweep arch (address + UInt64.ofNat (f.item arch code address).length)
          (code.drop (f.item arch code address).length) := by
  rw [sweep, dif_neg h]

end PureDecoder

namespace Engine

variable {σ δ : Type}

def asked (e : Engine σ δ) (d : δ) (questions : List (List UInt8 × UInt64)) : δ :=
  questions.foldl (fun d q => (e.decode d q.1 q.2).2) d

def Answers (e : Engine σ δ) (d : δ) (f : PureDecoder) : Prop :=
  ∀ questions code address, (e.decode (e.asked d questions) code address).1 = f code address

def opened (e : Engine σ δ) (shared : σ) (openings : List (Architecture × ByteOrder)) : σ :=
  openings.foldl (fun shared o => (e.start o.1 o.2 shared).2) shared

/-- However many decoders are opened first, one more can be, and it answers like `f`. -/
def Serves (e : Engine σ δ) (arch : Architecture) (order : ByteOrder) (f : PureDecoder)
    (shared : σ) : Prop :=
  ∀ openings, ∃ d, (e.start arch order (e.opened shared openings)).1 = .ok d ∧ e.Answers d f

theorem Answers.decode_eq {e : Engine σ δ} {d : δ} {f : PureDecoder} (h : e.Answers d f)
    (code : List UInt8) (address : UInt64) : (e.decode d code address).1 = f code address :=
  h [] code address

theorem Answers.next {e : Engine σ δ} {d : δ} {f : PureDecoder} (h : e.Answers d f)
    (code : List UInt8) (address : UInt64) : e.Answers (e.decode d code address).2 f :=
  fun questions => h ((code, address) :: questions)

theorem Serves.next {e : Engine σ δ} {arch : Architecture} {order : ByteOrder} {f : PureDecoder}
    {shared : σ} (h : e.Serves arch order f shared) (arch' : Architecture) (order' : ByteOrder) :
    e.Serves arch order f (e.start arch' order' shared).2 :=
  fun openings => h ((arch', order') :: openings)

/-- An opening in normal form: a decoder, and a state from which openings go on. -/
theorem Serves.start_eq {e : Engine σ δ} {arch : Architecture} {order : ByteOrder}
    {f : PureDecoder} {shared : σ} (h : e.Serves arch order f shared) :
    ∃ d shared', e.start arch order shared = (.ok d, shared') ∧ e.Answers d f ∧
      e.Serves arch order f shared' := by
  obtain ⟨d, hd, ha⟩ := h []
  refine ⟨d, (e.start arch order shared).2, ?_, ha, h.next arch order⟩
  exact Prod.ext hd rfl

/-- A decoder without a state does not change, whatever it is asked. -/
theorem answers_ofDecoder (name : String) (supports : Architecture → Bool)
    (decoder : Architecture → ByteOrder → PureDecoder) (d : PureDecoder) :
    (ofDecoder name supports decoder).Answers d d := by
  intro questions code address
  have hd : (ofDecoder name supports decoder).asked d questions = d := by
    induction questions with
    | nil => rfl
    | cons q questions ih => exact ih
  rw [hd]
  rfl

/-- Without a budget, a decoder of one's own is opened every time. -/
theorem serves_ofDecoder (name : String) {supports : Architecture → Bool}
    (decoder : Architecture → ByteOrder → PureDecoder) {arch : Architecture}
    (order : ByteOrder) (h : supports arch = true) :
    (ofDecoder name supports decoder).Serves arch order (decoder arch order) none := by
  intro openings
  have hshared : (ofDecoder name supports decoder).opened none openings = none := by
    induction openings with
    | nil => rfl
    | cons o openings ih => exact ih
  refine ⟨decoder arch order, ?_, answers_ofDecoder name supports decoder _⟩
  rw [hshared]
  simp only [ofDecoder, h, if_true]

end Engine

namespace Stream

open Engine

variable {σ δ : Type} {e : Engine σ δ} {f : PureDecoder}

theorem item_eq {d : δ} (h : e.Answers d f) (arch : Architecture) (code : List UInt8)
    (address : UInt64) :
    (item e arch d code address).1 = f.item arch code address ∧
      e.Answers (item e arch d code address).2 f := by
  have hd := h.decode_eq code address
  have hn := h.next code address
  rcases hr : e.decode d code address with ⟨answer, d'⟩
  rw [hr] at hd hn
  simp only at hd hn
  cases answer with
  | none => simp [item, hr, PureDecoder.item, PureDecoder.accepted?, ← hd, hn]
  | some i =>
      simp only [item, hr, PureDecoder.item, PureDecoder.accepted?, ← hd, Option.filter_some]
      refine ⟨?_, hn⟩
      split <;> rfl

@[simp] theorem arch_advance (s : Stream δ) (n : Nat) (d : δ) : (s.advance n d).arch = s.arch := rfl

@[simp] theorem rest_advance (s : Stream δ) (n : Nat) (d : δ) :
    (s.advance n d).rest = s.rest.drop n := rfl

@[simp] theorem decoder_advance (s : Stream δ) (n : Nat) (d : δ) :
    (s.advance n d).decoder = some d := rfl

@[simp] theorem address_advance (s : Stream δ) (n : Nat) (d : δ) :
    (s.advance n d).address = s.address + UInt64.ofNat n := by
  simp only [address, advance, UInt64.ofNat_add, UInt64.add_assoc]

theorem next_of_rest_eq_nil {s : Stream δ} (h : s.rest = []) (shared : σ) :
    next e s shared = (none, s, shared) := by
  rw [next, h]
  rfl

theorem next_of_decoder {s : Stream δ} {d : δ} (hd : s.decoder = some d) (h : s.rest ≠ [])
    (shared : σ) :
    next e s shared =
      (some (item e s.arch d s.rest s.address).1,
        s.advance (item e s.arch d s.rest s.address).1.length
          (item e s.arch d s.rest s.address).2, shared) := by
  have hne : s.rest.isEmpty = false := by simpa using h
  rw [next, hne, hd]
  rfl

theorem drain_of_none {s t : Stream δ} {shared shared' : σ}
    (h : next e s shared = (none, t, shared')) : drain e s shared = ([], t, shared') := by
  rw [drain]
  split
  · simp_all
  · simp_all

theorem drain_of_some {s t : Stream δ} {shared shared' : σ} {i : Instruction}
    (h : next e s shared = (some i, t, shared')) :
    drain e s shared =
      (i :: (drain e t shared').1, (drain e t shared').2.1, (drain e t shared').2.2) := by
  rw [drain]
  split
  · simp_all
  · simp_all

/-- A stream with an open decoder opens no other, and yields the sweep over what is left. -/
theorem drain_eq_sweep {s : Stream δ} {d : δ} (hd : s.decoder = some d) (ha : e.Answers d f)
    (shared : σ) :
    (drain e s shared).1 = f.sweep s.arch s.address s.rest ∧ (drain e s shared).2.2 = shared := by
  induction hn : s.rest.length using Nat.strongRecOn generalizing s d with
  | ind n ih =>
      by_cases hrest : s.rest = []
      · rw [drain_of_none (next_of_rest_eq_nil hrest shared), hrest, PureDecoder.sweep_nil]
        exact ⟨rfl, rfl⟩
      · obtain ⟨hitem, hnext⟩ := item_eq ha s.arch s.rest s.address
        rw [drain_of_some (next_of_decoder hd hrest shared)]
        have hlen := f.length_item s.arch s.address hrest
        rw [hitem]
        obtain ⟨hsweep, hshared⟩ := ih _ (by
          rw [rest_advance, List.length_drop]
          omega) (decoder_advance s (f.item s.arch s.rest s.address).length
            (item e s.arch d s.rest s.address).2) hnext rfl
        rw [hsweep, hshared, f.sweep_of_ne_nil s.arch s.address hrest, arch_advance,
          address_advance, rest_advance]
        exact ⟨rfl, rfl⟩

/-- A stream that is opened over code yields the sweep over it. -/
theorem start_eq {arch : Architecture} {order : ByteOrder} {shared : σ}
    (h : e.Serves arch order f shared) (base : UInt64) (code : List UInt8) :
    ∃ s shared', start e arch order base code shared = (.ok s, shared') ∧
      e.Serves arch order f shared' ∧
      ∀ shared'', (drain e s shared'').1 = f.sweep arch base code ∧
        (drain e s shared'').2.2 = shared'' := by
  obtain ⟨d, shared', hstart, ha, hs⟩ := h.start_eq
  refine ⟨{ (ofCode arch order base code : Stream δ) with decoder := some d }, shared', ?_, hs,
    fun shared'' => ?_⟩
  · rw [start, hstart]
  · have haddress :
        ({ (ofCode arch order base code : Stream δ) with decoder := some d }).address = base := by
      simp [address, ofCode]
    have hdrain := drain_eq_sweep
      (s := { (ofCode arch order base code : Stream δ) with decoder := some d }) rfl ha shared''
    rw [haddress] at hdrain
    exact hdrain

end Stream

end ElfAtlas
