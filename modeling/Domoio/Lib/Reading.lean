import Mathlib.Data.List.TakeWhile

/-
  File:      Domoio/Lib/Reading.lean
  Subject:   Readers over a sequence of symbols, and the words they read.

  A reader takes symbols from a source, gives a value or fails. Its meaning is a grammar: `R k b w rest`
  says that the word `w`, with `k` kept of what is before it and `rest` behind it, reads as `b`. `Meets`
  ties a reader to a grammar in both directions, and says of every failure what it blames. Each way of
  building a reader has its rule, the loop with fuel included: fuel beyond what is left to read never
  runs out, because every turn of the loop reads something.
-/

namespace Lib

/-- A sequence of symbols being read: what is left, and what is kept of the symbols behind. -/
@[ext]
structure Source (κ α : Type) where
  behind : κ
  rest : List α

/-- A computation that reads from a source and may fail. -/
abbrev Reading (κ α ε : Type) := StateT (Source κ α) (Except ε)

/-- Which words read as which values: what is kept of the symbols before, the value, the word, and what
    follows it. -/
abbrev Grammar (κ α β : Type) := κ → β → List α → List α → Prop

namespace Source

variable {κ α : Type} {step : κ → α → κ} {s t m : Source κ α} {u v w : List α} {a : α}

/-- From `s` the word `w` is read, which leads to `t`. -/
structure Reads (step : κ → α → κ) (s : Source κ α) (w : List α) (t : Source κ α) : Prop where
  rest : s.rest = w ++ t.rest
  behind : t.behind = w.foldl step s.behind

theorem Reads.refl (s : Source κ α) : s.Reads step [] s := ⟨rfl, rfl⟩

theorem reads_nil : s.Reads step [] t ↔ t = s := by
  constructor
  · intro h
    exact Source.ext h.behind h.rest.symm
  · rintro rfl
    exact Reads.refl _

theorem reads_append : s.Reads step (u ++ v) t ↔ ∃ m, s.Reads step u m ∧ m.Reads step v t := by
  constructor
  · intro h
    refine ⟨⟨u.foldl step s.behind, v ++ t.rest⟩, ⟨?_, rfl⟩, ⟨rfl, ?_⟩⟩
    · simpa using h.rest
    · simpa using h.behind
  · rintro ⟨m, hu, hv⟩
    exact ⟨by simp [hu.rest, hv.rest], by simp [hu.behind, hv.behind]⟩

theorem Reads.trans (hu : s.Reads step u m) (hv : m.Reads step v t) : s.Reads step (u ++ v) t :=
  reads_append.mpr ⟨m, hu, hv⟩

theorem reads_cons : s.Reads step (a :: w) t ↔
    ∃ rest, s.rest = a :: rest ∧ (Source.mk (step s.behind a) rest).Reads step w t := by
  constructor
  · intro h
    exact ⟨w ++ t.rest, h.rest, rfl, h.behind⟩
  · rintro ⟨rest, hs, h⟩
    exact ⟨hs.trans (congrArg (a :: ·) h.rest), h.behind⟩

theorem Reads.length (h : s.Reads step w t) : s.rest.length = w.length + t.rest.length := by
  rw [h.rest, List.length_append]

end Source

namespace Reading

variable {κ α ε β γ : Type} {step : κ → α → κ} {I J : Source κ α → Prop} {E : ε → Prop}

/-- What a reader reads and what its failures say, from a source where `I` holds: it gives `b` exactly
    where a word that reads as `b` comes next, and fails only with what `E` allows. -/
structure Meets (step : κ → α → κ) (I : Source κ α → Prop) (E : ε → Prop) (p : Reading κ α ε β)
    (R : Grammar κ α β) : Prop where
  reads : ∀ s, I s → ∀ b t, p s = .ok (b, t) ↔ ∃ w, s.Reads step w t ∧ R s.behind b w t.rest
  fails : ∀ s, I s → ∀ e, p s = .error e → E e

/-- What holds of a source holds of every source reading leads to. -/
def Kept (step : κ → α → κ) (I : Source κ α → Prop) : Prop :=
  ∀ ⦃s w t⦄, I s → s.Reads step w t → I t

/-- One word behind another: the word splits, and the first part is read before the second. -/
def Then (step : κ → α → κ) (R : Grammar κ α β) (R' : β → Grammar κ α γ) : Grammar κ α γ :=
  fun k c w rest => ∃ b u v, w = u ++ v ∧ R k b u (v ++ rest) ∧ R' b (u.foldl step k) c v rest

/-! ## 1. Rules -/

namespace Meets

variable {p q : Reading κ α ε β} {R R' : Grammar κ α β}

theorem congr (h : Meets step I E p R) (hR : ∀ k b w rest, R k b w rest ↔ R' k b w rest) :
    Meets step I E p R' := by
  have : R = R' := by
    funext k b w rest
    exact propext (hR k b w rest)
  rwa [← this]

/-- The grammar matters only where `I` holds. -/
theorem congr_of (h : Meets step I E p R) (hR : ∀ s b w t, I s → s.Reads step w t →
    (R s.behind b w t.rest ↔ R' s.behind b w t.rest)) : Meets step I E p R' where
  reads s hs b t := (h.reads s hs b t).trans
    (exists_congr fun w => and_congr_right fun hw => hR s b w t hs hw)
  fails := h.fails

theorem weaken (h : Meets step I E p R) (hI : ∀ s, J s → I s) : Meets step J E p R where
  reads s hJ := h.reads s (hI s hJ)
  fails s hJ := h.fails s (hI s hJ)

theorem ite {c : Prop} [Decidable c] (hp : c → Meets step I E p R) (hq : ¬ c → Meets step I E q R') :
    Meets step I E (if c then p else q) fun k b w rest => if c then R k b w rest else R' k b w rest := by
  by_cases h : c
  · simpa [h] using hp h
  · simpa [h] using hq h

end Meets

theorem meets_pure (a : β) :
    Meets step I E (pure a : Reading κ α ε β) fun _ b w _ => b = a ∧ w = [] where
  reads s _ b t := by
    constructor
    · rintro ⟨⟩
      exact ⟨[], Source.Reads.refl s, rfl, rfl⟩
    · rintro ⟨w, hw, rfl, rfl⟩
      rw [Source.reads_nil.mp hw]
      rfl
  fails s _ e h := by cases h

theorem bind_ok {p : Reading κ α ε β} {q : β → Reading κ α ε γ} {s t : Source κ α} {c : γ} :
    (p >>= q) s = .ok (c, t) ↔ ∃ b m, p s = .ok (b, m) ∧ q b m = .ok (c, t) := by
  change (p s).bind (fun r => q r.1 r.2) = _ ↔ _
  cases hp : p s with
  | error e => simp [Except.bind]
  | ok r => exact ⟨fun h => ⟨r.1, r.2, rfl, h⟩, by rintro ⟨b, m, ⟨⟩, h⟩; exact h⟩

theorem bind_error {p : Reading κ α ε β} {q : β → Reading κ α ε γ} {s : Source κ α} {e : ε} :
    (p >>= q) s = .error e ↔
      p s = .error e ∨ ∃ b m, p s = .ok (b, m) ∧ q b m = .error e := by
  change (p s).bind (fun r => q r.1 r.2) = _ ↔ _
  cases hp : p s with
  | error d => simp [Except.bind]
  | ok r =>
      constructor
      · intro h
        exact .inr ⟨r.1, r.2, rfl, h⟩
      · rintro (h | ⟨b, m, h, hq⟩)
        · cases h
        · cases h
          exact hq

section Bind

variable {p : Reading κ α ε β} {q : β → Reading κ α ε γ} {R : Grammar κ α β} {R' : β → Grammar κ α γ}

theorem Meets.map (f : β → γ) (hp : Meets step I E p R) :
    Meets step I E (f <$> p) fun k c w rest => ∃ b, c = f b ∧ R k b w rest where
  reads s hs c t := by
    have hmap : (f <$> p) s = .ok (c, t) ↔ ∃ b, c = f b ∧ p s = .ok (b, t) := by
      rw [map_eq_pure_bind, bind_ok]
      constructor
      · rintro ⟨b, m, hp, ⟨⟩⟩
        exact ⟨b, rfl, hp⟩
      · rintro ⟨b, rfl, hp⟩
        exact ⟨b, t, hp, rfl⟩
    rw [hmap]
    constructor
    · rintro ⟨b, rfl, h⟩
      obtain ⟨w, hw, hR⟩ := (hp.reads s hs b t).mp h
      exact ⟨w, hw, b, rfl, hR⟩
    · rintro ⟨w, hw, b, rfl, hR⟩
      exact ⟨b, rfl, (hp.reads s hs b t).mpr ⟨w, hw, hR⟩⟩
  fails s hs e h := by
    rw [map_eq_pure_bind] at h
    rcases bind_error.mp h with h | ⟨b, m, -, h⟩
    · exact hp.fails s hs e h
    · cases h

/-- A reader behind a reader: the second meets its part wherever the first leads. -/
theorem Meets.bind_of (hp : Meets step I E p R) (hq : ∀ b, Meets step J E (q b) (R' b))
    (hJ : ∀ s b u t, I s → s.Reads step u t → R s.behind b u t.rest → J t) :
    Meets step I E (p >>= q) (Then step R R') where
  reads s hs c t := by
    rw [bind_ok]
    constructor
    · rintro ⟨b, m, hpm, hqt⟩
      obtain ⟨u, hu, hRu⟩ := (hp.reads s hs b m).mp hpm
      obtain ⟨v, hv, hRv⟩ := ((hq b).reads m (hJ s b u m hs hu hRu) c t).mp hqt
      exact ⟨u ++ v, hu.trans hv, b, u, v, rfl, hv.rest ▸ hRu, hu.behind ▸ hRv⟩
    · rintro ⟨w, hw, b, u, v, rfl, hRu, hRv⟩
      obtain ⟨m, hu, hv⟩ := Source.reads_append.mp hw
      rw [← hv.rest] at hRu
      rw [← hu.behind] at hRv
      exact ⟨b, m, (hp.reads s hs b m).mpr ⟨u, hu, hRu⟩,
        ((hq b).reads m (hJ s b u m hs hu hRu) c t).mpr ⟨v, hv, hRv⟩⟩
  fails s hs e h := by
    rcases bind_error.mp h with h | ⟨b, m, hpm, hqe⟩
    · exact hp.fails s hs e h
    · obtain ⟨u, hu, hRu⟩ := (hp.reads s hs b m).mp hpm
      exact (hq b).fails m (hJ s b u m hs hu hRu) e hqe

theorem Meets.bind (hI : Kept step I) (hp : Meets step I E p R)
    (hq : ∀ b, Meets step I E (q b) (R' b)) : Meets step I E (p >>= q) (Then step R R') :=
  hp.bind_of hq fun _ _ _ _ hs hu _ => hI hs hu

end Bind

/-! ## 2. Looking and taking symbols -/

/-- What is left and what is kept of the rest, looked at without reading. -/
def look (f : Source κ α → β) : Reading κ α ε β := fun s => .ok (f s, s)

theorem Meets.look_bind {f : Source κ α → β} {q : β → Reading κ α ε γ} {R : β → Grammar κ α γ}
    (hq : ∀ b, Meets step (fun s => I s ∧ f s = b) E (q b) (R b)) :
    Meets step I E (look f >>= q) fun k c w rest => R (f ⟨k, w ++ rest⟩) k c w rest where
  reads s hs c t := by
    have hlook := (hq (f s)).reads s ⟨hs, rfl⟩ c t
    refine hlook.trans (exists_congr fun w => and_congr_right fun hw => ?_)
    rw [← hw.rest]
  fails s hs e h := (hq (f s)).fails s ⟨hs, rfl⟩ e h

/-- The next symbol; at the end the symbol given, as a C stream gives EOF. -/
def get (step : κ → α → κ) (eof : α) : Reading κ α ε α := fun s =>
  match s.rest with
  | [] => .ok (eof, ⟨step s.behind eof, []⟩)
  | a :: rest => .ok (a, ⟨step s.behind a, rest⟩)

theorem get_bind_nil {eof : α} {q : α → Reading κ α ε γ} {s : Source κ α} (h : s.rest = []) :
    (get step eof >>= q) s = q eof ⟨step s.behind eof, []⟩ := by
  change (get step eof s).bind (fun r => q r.1 r.2) = _
  simp only [get, h]
  rfl

theorem get_bind_cons {eof a : α} {rest : List α} {q : α → Reading κ α ε γ} {s : Source κ α}
    (h : s.rest = a :: rest) : (get step eof >>= q) s = q a ⟨step s.behind a, rest⟩ := by
  change (get step eof s).bind (fun r => q r.1 r.2) = _
  simp only [get, h]
  rfl

/-- Taking a symbol and going on: where the end is no word, going on from there fails. -/
theorem Meets.get_bind {eof : α} {q : α → Reading κ α ε γ} {R : α → Grammar κ α γ}
    (hq : ∀ a, Meets step J E (q a) (R a)) (hJ : ∀ s a t, I s → s.Reads step [a] t → J t)
    (heof : ∀ s, I s → s.rest = [] → ∃ e, q eof ⟨step s.behind eof, []⟩ = .error e ∧ E e) :
    Meets step I E (get step eof >>= q)
      fun k c w rest => ∃ a v, w = a :: v ∧ R a (step k a) c v rest where
  reads s hs c t := by
    cases hrest : s.rest with
    | nil =>
        obtain ⟨e, he, -⟩ := heof s hs hrest
        rw [get_bind_nil hrest, he]
        constructor
        · rintro ⟨⟩
        · rintro ⟨w, hw, a, v, rfl, -⟩
          have := hw.rest
          simp [hrest] at this
    | cons a rest =>
        have hread : s.Reads step [a] ⟨step s.behind a, rest⟩ := ⟨hrest, rfl⟩
        rw [get_bind_cons hrest]
        refine ((hq a).reads _ (hJ s a _ hs hread) c t).trans ?_
        constructor
        · rintro ⟨v, hv, hR⟩
          exact ⟨a :: v, hread.trans hv, a, v, rfl, hR⟩
        · rintro ⟨w, hw, b, v, rfl, hR⟩
          obtain ⟨rest', hrest', hv⟩ := Source.reads_cons.mp hw
          cases hrest.symm.trans hrest'
          exact ⟨v, hv, hR⟩
  fails s hs e he := by
    cases hrest : s.rest with
    | nil =>
        obtain ⟨d, hd, hE⟩ := heof s hs hrest
        rw [get_bind_nil hrest, hd] at he
        cases he
        exact hE
    | cons a rest =>
        have hread : s.Reads step [a] ⟨step s.behind a, rest⟩ := ⟨hrest, rfl⟩
        rw [get_bind_cons hrest] at he
        exact (hq a).fails _ (hJ s a _ hs hread) e he

/-- The symbols up to the first one that fails the test. -/
def readWhile (step : κ → α → κ) (f : α → Bool) : Reading κ α ε (List α) := fun s =>
  .ok (s.rest.takeWhile f, ⟨(s.rest.takeWhile f).foldl step s.behind, s.rest.dropWhile f⟩)

/-- The next symbol, if there is one, fails the test. -/
def StopsAt (f : α → Bool) (rest : List α) : Prop := ∀ a ∈ rest.head?, f a = false

theorem takeWhile_eq_iff {f : α → Bool} {l w : List α} :
    l.takeWhile f = w ↔ ∃ rest, l = w ++ rest ∧ (∀ a ∈ w, f a = true) ∧ StopsAt f rest := by
  constructor
  · rintro rfl
    refine ⟨l.dropWhile f, (List.takeWhile_append_dropWhile).symm, fun a => List.mem_takeWhile_imp, ?_⟩
    intro a ha
    have := List.head?_dropWhile_not f l
    rw [ha] at this
    exact this
  · rintro ⟨rest, rfl, hw, hrest⟩
    rw [List.takeWhile_append_of_pos hw]
    cases rest with
    | nil => simp
    | cons a rest => simp [hrest a rfl]

theorem meets_readWhile (f : α → Bool) :
    Meets step I E (readWhile step f : Reading κ α ε (List α))
      fun _ b w rest => b = w ∧ (∀ a ∈ w, f a = true) ∧ StopsAt f rest where
  reads s _ b t := by
    constructor
    · rintro ⟨⟩
      refine ⟨s.rest.takeWhile f, ⟨List.takeWhile_append_dropWhile.symm, rfl⟩, rfl, ?_⟩
      obtain ⟨rest, hrest, hw, hstop⟩ := takeWhile_eq_iff.mp (Eq.refl (s.rest.takeWhile f))
      have : rest = s.rest.dropWhile f :=
        List.append_cancel_left (hrest.symm.trans List.takeWhile_append_dropWhile.symm)
      exact ⟨hw, this ▸ hstop⟩
    · rintro ⟨w, hw, rfl, hall, hstop⟩
      have htake : s.rest.takeWhile f = b := takeWhile_eq_iff.mpr ⟨t.rest, hw.rest, hall, hstop⟩
      have hdrop : s.rest.dropWhile f = t.rest := by
        have hsame : b ++ s.rest.dropWhile f = b ++ t.rest := by
          rw [← hw.rest, ← htake, List.takeWhile_append_dropWhile]
        exact List.append_cancel_left hsame
      rw [readWhile, htake, hdrop, ← hw.behind]
  fails s _ e h := by cases h

/-! ## 3. Loops -/

/-- `while (cond) body`, with fuel. -/
def whileLoop (outOfFuel : ε) (cond : β → List α → Bool) (body : β → Reading κ α ε β) :
    Nat → β → Reading κ α ε β
  | 0, _ => fun _ => .error outOfFuel
  | fuel + 1, b => do
      if ← look (fun s => cond b s.rest) then
        let c ← body b
        whileLoop outOfFuel cond body fuel c
      else
        return b

/-- What a loop reads: turns one behind the other while the condition holds. -/
inductive Turns (step : κ → α → κ) (cond : β → List α → Bool) (R : β → Grammar κ α β) :
    β → Grammar κ α β
  | done {b : β} {k : κ} {rest : List α} : cond b rest = false → Turns step cond R b k b [] rest
  | turn {b c d : β} {k : κ} {u v rest : List α} : cond b (u ++ v ++ rest) = true →
      R b k c u (v ++ rest) → Turns step cond R c (u.foldl step k) d v rest →
      Turns step cond R b k d (u ++ v) rest

theorem turns_iff {cond : β → List α → Bool} {R : β → Grammar κ α β} {b d : β} {k : κ}
    {w rest : List α} :
    Turns step cond R b k d w rest ↔
      if cond b (w ++ rest) = true then Then step (R b) (Turns step cond R) k d w rest
      else d = b ∧ w = [] := by
  constructor
  · rintro (hstop | ⟨hcond, hR, ht⟩)
    · simp [hstop]
    · rw [if_pos hcond]
      exact ⟨_, _, _, rfl, hR, ht⟩
  · split
    · rename_i hcond
      rintro ⟨c, u, v, rfl, hR, ht⟩
      exact .turn hcond hR ht
    · rename_i hcond
      rintro ⟨rfl, rfl⟩
      exact .done (Bool.eq_false_iff.mpr hcond)

/-- A loop whose turns each read something ends with fuel beyond what is left to read, and reads its
    turns one behind the other. -/
theorem Meets.whileLoop (hI : Kept step I) {outOfFuel : ε} {cond : β → List α → Bool}
    {body : β → Reading κ α ε β} {R : β → Grammar κ α β}
    (hbody : ∀ b, Meets step (fun s => I s ∧ cond b s.rest = true) E (body b) (R b))
    (hprogress : ∀ {b k c u rest}, R b k c u rest → u ≠ []) (fuel : Nat) (b : β) :
    Meets step (fun s => I s ∧ s.rest.length < fuel) E (whileLoop outOfFuel cond body fuel b)
      (Turns step cond R b) := by
  induction fuel generalizing b with
  | zero =>
      exact ⟨fun s hs => absurd hs.2 (Nat.not_lt_zero _), fun s hs => absurd hs.2 (Nat.not_lt_zero _)⟩
  | succ fuel ih =>
      refine (Meets.look_bind (R := fun more k d w rest =>
        if more = true then Then step (R b) (Turns step cond R) k d w rest else d = b ∧ w = []) ?_).congr
          fun k d w rest => turns_iff.symm
      intro more
      refine Meets.ite ?_ ?_
      · rintro rfl
        have hturn : Meets step (fun s => (I s ∧ s.rest.length < fuel + 1) ∧ cond b s.rest = true) E
            (body b) (R b) := (hbody b).weaken fun s hs => ⟨hs.1.1, hs.2⟩
        refine hturn.bind_of ih fun s c u t hs hu hR => ⟨hI hs.1.1 hu, ?_⟩
        -- a turn reads a symbol: less is left than the fuel that remains
        have hpos := List.length_pos_iff.mpr (hprogress hR)
        have hlength := hu.length
        have hfuel := hs.1.2
        omega
      · intro hmore
        exact meets_pure b

/-! ## 4. Lists with separators -/

/-- A list of items with a separator between any two. -/
inductive Listed (sep : α → Bool) (Item : β → List α → Prop) : List β → List α → Prop
  | nil : Listed sep Item [] []
  | single {b : β} {u : List α} : Item b u → Listed sep Item [b] u
  | cons {b c : β} {bs : List β} {a : α} {u v : List α} : Item b u → sep a = true →
      Listed sep Item (c :: bs) v → Listed sep Item (b :: c :: bs) (u ++ a :: v)

/-- What a loop admits one item after the other behind those it has. -/
def Admitted (ok : List β → β → Prop) : List β → List β → Prop
  | _, [] => True
  | bs, c :: cs => ok bs c ∧ Admitted ok (bs ++ [c]) cs

/-- One pass of a loop that collects items and goes on behind a separator: an admitted item, and whether
    there are more. -/
def Pass (sep : α → Bool) (ok : List β → β → Prop) (Item : β → List α → Prop) (x : List β × Bool) :
    Grammar κ α (List β × Bool) := fun _ y w rest =>
  ∃ b u, y.1 = x.1 ++ [b] ∧ ok x.1 b ∧ Item b u ∧
    ((y.2 = true ∧ ∃ a, sep a = true ∧ w = u ++ [a]) ∨ (y.2 = false ∧ w = u ∧ StopsAt sep rest))

/-- The loop collects a list with separators. -/
theorem turns_pass {sep : α → Bool} {ok : List β → β → Prop} {Item : β → List α → Prop}
    {bs : List β} {y : List β × Bool} {k : κ} {w rest : List α} :
    Turns step (fun x _ => x.2) (Pass sep ok Item) (bs, true) k y w rest ↔
      y.2 = false ∧ StopsAt sep rest ∧
        ∃ c cs, y.1 = bs ++ c :: cs ∧ Admitted ok bs (c :: cs) ∧ Listed sep Item (c :: cs) w := by
  constructor
  · intro h
    generalize hx : (bs, true) = x at h
    induction h generalizing bs with
    | done hstop =>
        subst hx
        cases hstop
    | @turn x z y k _ v rest _ hpass hturns ih =>
        subst hx
        obtain ⟨b, u, hz, hok, hitem, ⟨hmore, a, ha, rfl⟩ | ⟨hmore, rfl, hstop⟩⟩ := hpass
        · obtain ⟨hend, hstop, c, cs, hy, hcs, hlisted⟩ := ih (Prod.ext hz.symm hmore.symm)
          refine ⟨hend, hstop, b, c :: cs, by simpa using hy, ⟨hok, hcs⟩, ?_⟩
          rw [List.append_assoc]
          exact .cons hitem ha hlisted
        · -- no separator: the next turn does not come
          rcases hturns with hdone | ⟨hcond, -, -⟩
          · exact ⟨hmore, by simpa using hstop, b, [], hz, ⟨hok, trivial⟩,
              (List.append_nil _).symm ▸ .single hitem⟩
          · rw [hmore] at hcond
            cases hcond
  · rintro ⟨hend, hstop, c, cs, hy, hok, hlisted⟩
    obtain ⟨ds, more⟩ := y
    subst hend hy
    induction cs generalizing bs c w k with
    | nil =>
        cases hlisted with
        | single hitem =>
            have hlast : Pass sep ok Item (bs, true) k (bs ++ [c], false) w ([] ++ rest) :=
              ⟨c, w, rfl, hok.1, hitem, .inr ⟨rfl, rfl, hstop⟩⟩
            exact List.append_nil w ▸ .turn rfl hlast (.done rfl)
    | cons d ds ih =>
        cases hlisted with
        | @cons _ _ _ a u v hitem ha hrest =>
            have hpass : Pass sep ok Item (bs, true) k (bs ++ [c], true) (u ++ [a]) (v ++ rest) :=
              ⟨c, u, rfl, hok.1, hitem, .inl ⟨rfl, a, ha, rfl⟩⟩
            have hnext : Turns step (fun (x : List β × Bool) _ => x.2) (Pass sep ok Item)
                (bs ++ [c], true) ((u ++ [a]).foldl step k) (bs ++ [c] ++ d :: ds, false) v rest :=
              ih d hok.2 hrest
            have hturn := Turns.turn rfl hpass hnext
            simpa using hturn

theorem Pass.progress {sep : α → Bool} {ok : List β → β → Prop} {Item : β → List α → Prop}
    (hitem : ∀ b u, Item b u → u ≠ []) {x y : List β × Bool} {k : κ} {w rest : List α}
    (h : Pass sep ok Item x k y w rest) : w ≠ [] := by
  obtain ⟨b, u, -, -, hu, ⟨-, a, -, rfl⟩ | ⟨-, rfl, -⟩⟩ := h
  · simp
  · exact hitem b w hu

/-- A list is read from symbols as from their images. -/
theorem listed_map {α' : Type} (f : α → α') {sep : α' → Bool} {Item : β → List α' → Prop}
    {bs : List β} {w : List α} :
    Listed (fun a => sep (f a)) (fun b u => Item b (u.map f)) bs w ↔ Listed sep Item bs (w.map f) := by
  constructor
  · intro h
    induction h with
    | nil => exact .nil
    | single hitem => exact .single hitem
    | cons hitem ha _ ih =>
        rw [List.map_append, List.map_cons]
        exact .cons hitem ha ih
  · generalize hw : w.map f = w'
    intro h
    induction h generalizing w with
    | nil =>
        rw [List.map_eq_nil_iff.mp hw]
        exact .nil
    | single hitem => exact .single (hw ▸ hitem)
    | cons hitem ha _ ih =>
        obtain ⟨u, v, rfl, rfl, hv⟩ := List.map_eq_append_iff.mp hw
        obtain ⟨a, v, rfl, rfl, hmap⟩ := List.map_eq_cons_iff.mp hv
        exact .cons hitem ha (ih hmap)

end Reading

end Lib
