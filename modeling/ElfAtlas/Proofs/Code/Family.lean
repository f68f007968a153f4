import ElfAtlas.Proofs.Code.Tiling

/-!
Streams that grow out of one stream by reading, cloning and restarting, in any order. Every stream stands
behind some number of instructions of the sweep over the code, and what is done to one stream moves no
other, whichever openings of decoders fail on the way. Main statement: `Family.isIndependent_run`.
-/

namespace ElfAtlas

open Instruction

variable {σ δ : Type} {e : Engine σ δ} {f : PureDecoder} {arch : Architecture} {order : ByteOrder}
  {base : UInt64} {code : List UInt8}

namespace PureDecoder

/-- Behind its first `k` instructions, a sweep is the sweep over the bytes they leave. -/
theorem drop_sweep (f : PureDecoder) (arch : Architecture) (address : UInt64) (code : List UInt8)
    (k : Nat) :
    (f.sweep arch address code).drop k =
      f.sweep arch
        (address + UInt64.ofNat (totalLength ((f.sweep arch address code).take k)))
        (code.drop (totalLength ((f.sweep arch address code).take k))) := by
  induction k generalizing address code with
  | zero => simp [totalLength]
  | succ k ih =>
      by_cases hcode : code = []
      · simp [hcode, totalLength]
      · rw [f.sweep_of_ne_nil arch address hcode, List.drop_succ_cons, List.take_succ_cons,
          totalLength_cons, ih, List.drop_drop, UInt64.ofNat_add, UInt64.add_assoc]

end PureDecoder

namespace Engine

/-- Every decoder that is opened, however many have been or could not be opened before it, answers
like `f`. -/
def OpensOnly (e : Engine σ δ) (arch : Architecture) (order : ByteOrder) (f : PureDecoder)
    (shared : σ) : Prop :=
  ∀ openings d, (e.start arch order (e.opened shared openings)).1 = .ok d → e.Answers d f

theorem OpensOnly.answers {shared shared' : σ} {d : δ} (h : e.OpensOnly arch order f shared)
    (hopen : e.start arch order shared = (.ok d, shared')) : e.Answers d f :=
  h [] d (by rw [opened, List.foldl_nil, hopen])

theorem OpensOnly.next {shared shared' : σ} {opening : Except Fault δ}
    (h : e.OpensOnly arch order f shared) (hopen : e.start arch order shared = (opening, shared')) :
    e.OpensOnly arch order f shared' := by
  intro openings d hd
  refine h ((arch, order) :: openings) d ?_
  rw [opened, List.foldl_cons, hopen]
  exact hd

/-- Whatever the budget, only decoders of one's own are opened. -/
theorem opensOnly_ofDecoder (name : String) (supports : Architecture → Bool)
    (decoder : Architecture → ByteOrder → PureDecoder) (arch : Architecture) (order : ByteOrder)
    (budget : OpenBudget) :
    (ofDecoder name supports decoder).OpensOnly arch order (decoder arch order) budget := by
  intro openings d hd
  simp only [ofDecoder] at hd
  split at hd
  · simp at hd
  · split at hd
    · rw [← Except.ok.inj hd]
      exact answers_ofDecoder name supports decoder (decoder arch order)
    · simp at hd

end Engine

namespace Stream

inductive Action where
  | next (j : Nat)
  | clone (j : Nat)
  | restart (j : Nat)
  deriving DecidableEq, Repr

structure Family (σ δ : Type) where
  streams : List (Stream δ)
  shared : σ

namespace Family

def act (e : Engine σ δ) (fam : Family σ δ) : Action → Option Instruction × Family σ δ
  | .next j =>
    match fam.streams[j]? with
    | none => (none, fam)
    | some s =>
      match Stream.next e s fam.shared with
      | (answer, t, shared) => (answer, ⟨fam.streams.set j t, shared⟩)
  | .clone j => (none, { fam with streams := fam.streams ++ (fam.streams[j]?.map clone).toList })
  | .restart j => (none, { fam with streams := fam.streams.modify j restart })

def run (e : Engine σ δ) (actions : List Action) (fam : Family σ δ) : Family σ δ :=
  actions.foldl (fun fam a => (fam.act e a).2) fam

def answers (e : Engine σ δ) (j : Nat) : List Action → Family σ δ → List (Option Instruction)
  | [], _ => []
  | a :: actions, fam =>
    if a = .next j then (fam.act e a).1 :: answers e j actions (fam.act e a).2
    else answers e j actions (fam.act e a).2

def CannotOpen (e : Engine σ δ) (j : Nat) (fam : Family σ δ) : Prop :=
  ∃ s fault, fam.streams[j]? = some s ∧ s.rest ≠ [] ∧ s.decoder = none ∧
    (e.start s.arch s.order fam.shared).1 = .error fault

/-- Whenever stream `j` is read during a run and needs a decoder, one is opened. -/
def Opens (e : Engine σ δ) (j : Nat) : List Action → Family σ δ → Prop
  | [], _ => True
  | a :: actions, fam =>
    (a = .next j → ¬ fam.CannotOpen e j) ∧ Opens e j actions (fam.act e a).2

structure IsIndependent (e : Engine σ δ) (is : List Instruction) (fam : Family σ δ) : Prop where
  /-- Every stream is at the start, between two instructions of the sweep, or at the end. -/
  boundary : ∀ s ∈ fam.streams, IsBoundary is s.pos
  /-- What a stream answers is the instruction of the sweep at its position. -/
  read : ∀ j s k i, fam.streams[j]? = some s → s.pos = totalLength (is.take k) →
    (fam.act e (.next j)).1 = some i → is[k]? = some i
  /-- A stream stays as it is unless it is itself read or restarted. -/
  others : ∀ a j, a ≠ .next j → a ≠ .restart j → j < fam.streams.length →
    (fam.act e a).2.streams[j]? = fam.streams[j]?
  /-- A clone is a new stream at the position of the stream it is cloned from, which stays as it is. -/
  clone : ∀ j s, fam.streams[j]? = some s →
    ∃ t, (fam.act e (.clone j)).2.streams = fam.streams ++ [t] ∧ t.pos = s.pos
  /-- A restarted stream is at the start. -/
  restart : ∀ j s, fam.streams[j]? = some s →
    ∃ t, (fam.act e (.restart j)).2.streams[j]? = some t ∧ t.pos = 0
  /-- A stream that can open no decoder is at its end, until it is restarted. -/
  ended : ∀ j, fam.CannotOpen e j → (fam.act e (.next j)).1 = none ∧
    (∃ t, (fam.act e (.next j)).2.streams[j]? = some t ∧ t.pos = totalLength is) ∧
    ∀ actions, .restart j ∉ actions →
      ∀ answer ∈ answers e j actions (fam.act e (.next j)).2, answer = none
  /-- As long as a stream is not restarted and the decoders it needs are opened, it answers the
  instructions of the sweep from its position on, each once and in order, and then nothing. -/
  complete : ∀ j s k, fam.streams[j]? = some s → s.pos = totalLength (is.take k) →
    ∀ actions, .restart j ∉ actions → Opens e j actions fam →
      answers e j actions fam = (List.range (actions.count (.next j))).map fun n => is[k + n]?

end Family

variable {o s : Stream δ} {k : Nat} {shared : σ}

theorem next_of_start (hrest : s.rest ≠ []) (hd : s.decoder = none) {opening : Except Fault δ}
    {shared' : σ} (hopen : e.start s.arch s.order shared = (opening, shared')) :
    Stream.next e s shared =
      match opening with
      | .ok d => (some (item e s.arch d s.rest s.address).1,
          s.advance (item e s.arch d s.rest s.address).1.length
            (item e s.arch d s.rest s.address).2, shared')
      | .error _ => (none, s.finish, shared') := by
  have hne : s.rest.isEmpty = false := by simpa using hrest
  rw [Stream.next, hne, hd]
  simp only [Bool.false_eq_true, if_false, hopen]
  cases opening with
  | ok d => rfl
  | error fault => rfl

def sweepAll (f : PureDecoder) (s : Stream δ) : List Instruction := f.sweep s.arch s.base s.code

/-- A stream over the code of the stream `o` that stands behind the first `k` instructions of the sweep,
and whose decoder, if there is one, answers like `f`. -/
structure StandsAt (e : Engine σ δ) (f : PureDecoder) (o : Stream δ) (k : Nat) (s : Stream δ) :
    Prop where
  arch_eq : s.arch = o.arch
  order_eq : s.order = o.order
  base_eq : s.base = o.base
  code_eq : s.code = o.code
  answers : ∀ d, s.decoder = some d → e.Answers d f
  pos_eq : s.pos = totalLength ((sweepAll f o).take k)

namespace StandsAt

/-- What the sweep holds from instruction `k` on is the sweep over what is left. -/
theorem drop_sweepAll (h : StandsAt e f o k s) :
    (sweepAll f o).drop k = f.sweep s.arch s.address s.rest := by
  rw [address, s.rest_eq, h.arch_eq, h.base_eq, h.code_eq, h.pos_eq]
  exact f.drop_sweep o.arch o.base o.code k

theorem getElem?_of_rest_eq_nil (h : StandsAt e f o k s) (hrest : s.rest = []) :
    (sweepAll f o)[k]? = none := by
  rw [← List.head?_drop, h.drop_sweepAll, hrest, PureDecoder.sweep_nil]
  rfl

theorem getElem?_of_rest_ne_nil (h : StandsAt e f o k s) (hrest : s.rest ≠ []) :
    (sweepAll f o)[k]? = some (f.item s.arch s.rest s.address) := by
  rw [← List.head?_drop, h.drop_sweepAll, f.sweep_of_ne_nil s.arch s.address hrest]
  rfl

/-- At the end of the sweep, a stream stands behind any larger number of instructions too. -/
theorem succ_of_rest_eq_nil (h : StandsAt e f o k s) (hrest : s.rest = []) :
    StandsAt e f o (k + 1) s := by
  refine { h with pos_eq := ?_ }
  rw [List.take_add_one, h.getElem?_of_rest_eq_nil hrest, Option.toList_none, List.append_nil]
  exact h.pos_eq

/-- Read with a decoder that answers like `f`, the stream moves on by the instruction there. -/
theorem advance (h : StandsAt e f o k s) (hrest : s.rest ≠ []) {d : δ} (hd : e.Answers d f) :
    (sweepAll f o)[k]? = some (item e s.arch d s.rest s.address).1 ∧
      StandsAt e f o (k + 1) (s.advance (item e s.arch d s.rest s.address).1.length
        (item e s.arch d s.rest s.address).2) := by
  obtain ⟨hitem, hnext⟩ := item_eq hd s.arch s.rest s.address
  have hget := h.getElem?_of_rest_ne_nil hrest
  rw [hitem]
  refine ⟨hget, h.arch_eq, h.order_eq, h.base_eq, h.code_eq, fun d' hd' => ?_, ?_⟩
  · rw [decoder_advance, Option.some.injEq] at hd'
    rwa [← hd']
  · rw [List.take_add_one, hget, totalLength_append, ← h.pos_eq]
    rfl

theorem clone (h : StandsAt e f o k s) : StandsAt e f o k s.clone :=
  { h with answers := fun _ hd => by cases hd }

theorem restart (h : StandsAt e f o k s) : StandsAt e f o 0 s.restart :=
  { h with pos_eq := rfl }

theorem finish (h : StandsAt e f o k s) (hd : s.decoder = none) :
    StandsAt e f o (sweepAll f o).length s.finish := by
  refine { h with answers := fun d hd' => ?_, pos_eq := ?_ }
  · rw [Stream.finish, hd] at hd'
    cases hd'
  · rw [List.take_length, sweepAll, PureDecoder.totalLength_sweep, ← h.code_eq]
    rfl

theorem isBoundary (h : StandsAt e f o k s) : IsBoundary (sweepAll f o) s.pos := ⟨k, h.pos_eq.symm⟩

/-- Reading a stream yields the instruction where it stands, or nothing at the end. Otherwise it needs a
decoder and none can be opened: then it yields nothing and is at its end. -/
theorem next_cases (h : StandsAt e f o k s) (hs : e.OpensOnly o.arch o.order f shared) :
    (∃ t shared', Stream.next e s shared = ((sweepAll f o)[k]?, t, shared') ∧
      StandsAt e f o (k + 1) t ∧ e.OpensOnly o.arch o.order f shared') ∨
    (s.rest ≠ [] ∧ s.decoder = none ∧ ∃ fault shared',
      e.start s.arch s.order shared = (.error fault, shared') ∧
      Stream.next e s shared = (none, s.finish, shared') ∧
      StandsAt e f o (sweepAll f o).length s.finish ∧ e.OpensOnly o.arch o.order f shared') := by
  by_cases hrest : s.rest = []
  · rw [h.getElem?_of_rest_eq_nil hrest]
    exact .inl ⟨s, shared, next_of_rest_eq_nil hrest shared, h.succ_of_rest_eq_nil hrest, hs⟩
  · cases hd : s.decoder with
    | some d =>
        obtain ⟨hget, ht⟩ := h.advance hrest (h.answers d hd)
        rw [hget]
        exact .inl ⟨_, shared, next_of_decoder hd hrest shared, ht, hs⟩
    | none =>
        rcases hopen : e.start s.arch s.order shared with ⟨opening, shared'⟩
        have hopen' : e.start o.arch o.order shared = (opening, shared') := by
          rw [← h.arch_eq, ← h.order_eq, hopen]
        have hs' := hs.next hopen'
        cases opening with
        | error fault =>
            refine .inr ⟨hrest, rfl, fault, shared', rfl, ?_, h.finish hd, hs'⟩
            rw [next_of_start hrest hd hopen]
        | ok d =>
            obtain ⟨hget, ht⟩ := h.advance hrest (hs.answers hopen')
            rw [hget]
            refine .inl ⟨_, shared', ?_, ht, hs'⟩
            rw [next_of_start hrest hd hopen]

end StandsAt

namespace Family

variable {fam : Family σ δ} {j : Nat}

theorem act_next {t : Stream δ} {answer : Option Instruction} {shared' : σ}
    (hj : fam.streams[j]? = some s) (hnext : Stream.next e s fam.shared = (answer, t, shared')) :
    fam.act e (.next j) = (answer, ⟨fam.streams.set j t, shared'⟩) := by
  simp only [act, hj, hnext]

theorem streams_act_clone (hj : fam.streams[j]? = some s) :
    (fam.act e (.clone j)).2.streams = fam.streams ++ [s.clone] := by
  simp only [act, hj, Option.map_some, Option.toList_some]

theorem streams_act_restart (hj : fam.streams[j]? = some s) :
    (fam.act e (.restart j)).2.streams[j]? = some s.restart := by
  simp only [act, List.getElem?_modify, hj, if_true]
  rfl

theorem streams_act_of_ne (e : Engine σ δ) {a : Action} (hnext : a ≠ .next j)
    (hrestart : a ≠ .restart j) (hj : j < fam.streams.length) :
    (fam.act e a).2.streams[j]? = fam.streams[j]? := by
  cases a with
  | next j' =>
      cases hs : fam.streams[j']? with
      | none => simp only [act, hs]
      | some s =>
          rw [act_next hs rfl]
          exact List.getElem?_set_ne fun h => hnext (congrArg Action.next h)
  | clone j' => exact List.getElem?_append_left hj
  | restart j' =>
      exact List.getElem?_modify_ne _ _ fun h => hrestart (congrArg Action.restart h)

structure IsGrown (e : Engine σ δ) (f : PureDecoder) (o : Stream δ) (fam : Family σ δ) : Prop where
  stands : ∀ s ∈ fam.streams, ∃ k, StandsAt e f o k s
  opens : e.OpensOnly o.arch o.order f fam.shared

theorem IsGrown.act (h : fam.IsGrown e f o) (a : Action) : (fam.act e a).2.IsGrown e f o := by
  cases a with
  | next j =>
      cases hj : fam.streams[j]? with
      | none =>
          simp only [Family.act, hj]
          exact h
      | some s =>
          obtain ⟨k, hs⟩ := h.stands s (List.mem_of_getElem? hj)
          obtain ⟨t, shared', hnext, ht, hopens⟩ | ⟨-, -, -, shared', -, hnext, ht, hopens⟩ :=
            hs.next_cases h.opens
          all_goals
            rw [act_next hj hnext]
            refine ⟨fun s' hs' => ?_, hopens⟩
            rcases List.mem_or_eq_of_mem_set hs' with hs' | rfl
            · exact h.stands s' hs'
            · exact ⟨_, ht⟩
  | clone j =>
      refine ⟨fun s' hs' => ?_, h.opens⟩
      rcases List.mem_append.1 hs' with hs' | hs'
      · exact h.stands s' hs'
      · obtain ⟨s, hj, rfl⟩ := Option.map_eq_some_iff.1 (Option.mem_toList.1 hs')
        obtain ⟨k, hs⟩ := h.stands s (List.mem_of_getElem? hj)
        exact ⟨k, hs.clone⟩
  | restart j =>
      refine ⟨fun s' hs' => ?_, h.opens⟩
      obtain ⟨n, hn⟩ := List.getElem?_of_mem hs'
      simp only [Family.act, List.getElem?_modify] at hn
      obtain ⟨s, hs, rfl⟩ := Option.map_eq_some_iff.1 hn
      obtain ⟨k, hk⟩ := h.stands s (List.mem_of_getElem? hs)
      split
      · exact ⟨0, hk.restart⟩
      · exact ⟨k, hk⟩

theorem IsGrown.run (h : fam.IsGrown e f o) (actions : List Action) :
    (fam.run e actions).IsGrown e f o := by
  induction actions generalizing fam with
  | nil => exact h
  | cons a actions ih => exact ih (h.act a)

/-- During a run without a restart, a stream answers the instructions from where it stands on, unless it
needs a decoder and none can be opened. At the end of the sweep it needs none. -/
theorem answers_eq (h : fam.IsGrown e f o) (hj : fam.streams[j]? = some s)
    (hs : StandsAt e f o k s) {actions : List Action} (hrestart : .restart j ∉ actions)
    (hopens : (sweepAll f o)[k]? = none ∨ Opens e j actions fam) :
    answers e j actions fam =
      (List.range (actions.count (.next j))).map fun n => (sweepAll f o)[k + n]? := by
  induction actions generalizing fam s k with
  | nil => rfl
  | cons a actions ih =>
      rw [List.mem_cons, not_or] at hrestart
      obtain ⟨ha, hactions⟩ := hrestart
      have hlater : ∀ k', k ≤ k' →
          (sweepAll f o)[k']? = none ∨ Opens e j actions (fam.act e a).2 := fun k' hk' =>
        hopens.imp (fun hnone => by rw [List.getElem?_eq_none_iff] at hnone ⊢; omega) (·.2)
      by_cases hnext : a = .next j
      · subst hnext
        obtain ⟨t, shared', hread, ht, -⟩ | ⟨hrest, hd, fault, shared', hopen, -⟩ :=
          hs.next_cases h.opens
        · have hact := act_next hj hread
          have hgrown := h.act (.next j)
          have hk := hlater (k + 1) (Nat.le_succ k)
          rw [hact] at hgrown hk
          have hjlt : j < fam.streams.length := (List.getElem?_eq_some_iff.1 hj).1
          have hrest := ih hgrown (List.getElem?_set_self hjlt) ht hactions hk
          rw [answers, if_pos rfl, hact, hrest, List.count_cons_self, List.range_succ_eq_map,
            List.map_cons, List.map_map]
          refine List.cons_eq_cons.2 ⟨rfl, List.map_congr_left fun n _ => ?_⟩
          rw [Function.comp_apply, Nat.succ_eq_add_one, Nat.add_assoc, Nat.add_comm 1 n]
        · -- A stream that cannot open a decoder has instructions left, and the run opens one.
          rcases hopens with hnone | hopens
          · rw [hs.getElem?_of_rest_ne_nil hrest] at hnone
            cases hnone
          · exact absurd ⟨s, fault, hj, hrest, hd, by rw [hopen]⟩ (hopens.1 rfl)
      · have hjlt : j < fam.streams.length := (List.getElem?_eq_some_iff.1 hj).1
        have hsame := streams_act_of_ne e hnext (Ne.symm ha) hjlt
        have hrest := ih (h.act a) (hsame.trans hj) hs hactions (hlater k (Nat.le_refl k))
        rw [answers, if_neg hnext, hrest, List.count_cons_of_ne hnext]

theorem IsGrown.standsAt (h : fam.IsGrown e f o) (hj : fam.streams[j]? = some s)
    (hpos : s.pos = totalLength ((sweepAll f o).take k)) : StandsAt e f o k s := by
  obtain ⟨_, hs⟩ := h.stands s (List.mem_of_getElem? hj)
  exact { hs with pos_eq := hpos }

theorem act_next_of_cannotOpen (hj : fam.streams[j]? = some s) (hrest : s.rest ≠ [])
    (hd : s.decoder = none) {fault : Fault}
    (hopen : (e.start s.arch s.order fam.shared).1 = .error fault) :
    fam.act e (.next j) =
      (none, ⟨fam.streams.set j s.finish, (e.start s.arch s.order fam.shared).2⟩) := by
  refine act_next hj ?_
  rw [next_of_start hrest hd (Prod.ext hopen rfl)]

theorem IsGrown.isIndependent (h : fam.IsGrown e f o) : fam.IsIndependent e (sweepAll f o) where
  boundary s hs := by
    obtain ⟨k, hk⟩ := h.stands s hs
    exact hk.isBoundary
  read j s k i hj hpos hi := by
    obtain ⟨t, shared', hnext, -⟩ | ⟨-, -, -, shared', -, hnext, -⟩ :=
      (h.standsAt hj hpos).next_cases h.opens
    · rwa [act_next hj hnext] at hi
    · rw [act_next hj hnext] at hi
      cases hi
  others _ _ hnext hrestart hj := streams_act_of_ne e hnext hrestart hj
  clone _ s hj := ⟨s.clone, streams_act_clone hj, rfl⟩
  restart _ s hj := ⟨s.restart, streams_act_restart hj, rfl⟩
  ended j := by
    rintro ⟨s, fault, hj, hrest, hd, hopen⟩
    obtain ⟨k, hs⟩ := h.stands s (List.mem_of_getElem? hj)
    have hend := hs.finish hd
    have hjlt : j < fam.streams.length := (List.getElem?_eq_some_iff.1 hj).1
    have hget := List.getElem?_set_self (a := s.finish) hjlt
    have hgrown := h.act (.next j)
    rw [act_next_of_cannotOpen hj hrest hd hopen] at hgrown ⊢
    refine ⟨rfl, ⟨s.finish, hget, ?_⟩, fun actions hactions answer hanswer => ?_⟩
    · rw [hend.pos_eq, List.take_length]
    · rw [answers_eq hgrown hget hend hactions (.inl (List.getElem?_eq_none (Nat.le_refl _)))]
        at hanswer
      obtain ⟨n, -, rfl⟩ := List.mem_map.1 hanswer
      exact List.getElem?_eq_none (Nat.le_add_right _ n)
  complete _ _ _ hj hpos _ hrestart hopens :=
    answers_eq h hj (h.standsAt hj hpos) hrestart (.inr hopens)

/-- With an engine that opens decoders of one kind only, if it opens any, the streams that grow out of
one stream over a range are independent of each other after every row of actions. -/
theorem isIndependent_run {image : Array UInt8} {first stop : Nat} {shared' : σ} {d : δ}
    (hrange : first ≤ stop) (himage : stop ≤ image.size)
    (hopen : e.start arch order shared = (.ok d, shared'))
    (hs : e.OpensOnly arch order f shared) (actions : List Action) :
    ∃ s, ofRange e arch order base image first stop shared = (.ok s, shared') ∧
      (run e actions ⟨[s], shared'⟩).IsIndependent e
        (f.sweep arch base (image.extract first stop).toList) := by
  obtain ⟨s, hstream, rfl, rfl, rfl, hcode, hpos, hd⟩ := exists_ofRange base hrange himage hopen
  have hfirst : StandsAt e f s 0 s := by
    refine ⟨rfl, rfl, rfl, rfl, fun d' hd' => ?_, hpos⟩
    rw [hd, Option.some.injEq] at hd'
    rw [← hd']
    exact hs.answers hopen
  have hgrown : IsGrown e f s ⟨[s], shared'⟩ :=
    ⟨fun t ht => ⟨0, by rwa [List.mem_singleton.1 ht]⟩, hs.next hopen⟩
  have hindependent := (hgrown.run actions).isIndependent
  rw [sweepAll, hcode] at hindependent
  exact ⟨s, hstream, hindependent⟩

/-- An engine that opens one decoder: the clone of the stream can open none, and ends. Restarted, it
would have to open one again, while the first stream reads on. -/
theorem isIndependent_run_one_decoder :
    let e := PlainEngine.words "word" fun _ => true
    let image : Array UInt8 := #[1, 0, 0, 0, 2, 0, 0, 0, 0, 0, 0, 0]
    let sweep := (PlainEngine.decodeWord .little).sweep .arm64 0x1000 (image.extract 0 12).toList
    let actions : List Action := [.next 0, .clone 0, .next 1, .restart 1]
    0 ≤ 12 ∧ 12 ≤ image.size ∧
      e.start .arm64 .little (some 1) = (.ok (PlainEngine.decodeWord .little), some 0) ∧
      e.OpensOnly .arm64 .little (PlainEngine.decodeWord .little) (some 1) ∧
      ∃ s, ofRange e .arm64 .little 0x1000 image 0 12 (some 1) = (.ok s, some 0) ∧
        (run e actions ⟨[s], some 0⟩).IsIndependent e sweep := by
  intro e image sweep actions
  have hopen : e.start .arm64 .little (some 1) = (.ok (PlainEngine.decodeWord .little), some 0) := rfl
  have hs := Engine.opensOnly_ofDecoder "word" (fun _ => true)
    (fun _ order => PlainEngine.decodeWord order) .arm64 .little (some 1)
  exact ⟨by decide, by decide, hopen, hs,
    isIndependent_run (by decide) (by decide) hopen hs actions⟩

end Family

end Stream

end ElfAtlas
