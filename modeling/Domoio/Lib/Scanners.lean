import Domoio.Lib.CText
import Domoio.Lib.Probe

/-
  File:      Domoio/Lib/Scanners.lean
  Subject:   The scanners of the C library and what they read.

  `strlen` and `strtol` over cursors: they come to what `bufferString` and `strtol` say of the memory
  from the cursor on (`result_strtol`), and read outside it exactly where those find no end
  (`exact_strtol`). The memory `strtol` finds no end in is white space, a sign, a prefix and digits to
  its end, each where there is one (`strtol_eq_none`).
-/

namespace Lib

namespace Probe

variable {ι : Type}

/-! ## 1. The scanners -/

/-- `std::string(p)`: the characters before the first NUL. -/
def cString (a : ι) (c : Cursor UInt8) : Probe ι Bytes :=
  Prod.fst <$> scan a (fun s b => if b = 0 then none else some (s ++ [b])) [] c.index c.rest

def skipSpace (a : ι) (c : Cursor UInt8) : Probe ι (Cursor UInt8) :=
  Prod.snd <$> scan a (fun _ b => if isSpace b then some () else none) () c.index c.rest

def scanSign (a : ι) (c : Cursor UInt8) : Probe ι (Bool × Cursor UInt8) := do
  let b ← peek a c
  return if b = 45 then (true, c.advance) else if b = 43 then (false, c.advance) else (false, c)

def skipHexPrefix (a : ι) (base : Nat) (c : Cursor UInt8) : Probe ι (Cursor UInt8) := do
  let b ← peek a c
  if base = 16 ∧ b = 48 then
    let x ← peek a c.advance
    return if x = 120 ∨ x = 88 then c.advance.advance else c
  else return c

def scanDigits (a : ι) (base : Nat) (c : Cursor UInt8) : Probe ι (Nat × Cursor UInt8) :=
  scan a (fun acc b => (digitValue base b).map fun d => acc * base + d) 0 c.index c.rest

/-- `strtol(p, NULL, base)`. -/
def strtol (a : ι) (base : Nat) (c : Cursor UInt8) : Probe ι Int := do
  let c ← skipSpace a c
  let (negative, c) ← scanSign a c
  let c ← skipHexPrefix a base c
  let (n, _) ← scanDigits a base c
  return clampLong (if negative then -(n : Int) else n)

/-! ## 2. What they come to -/

theorem scanned_cString (s b : Bytes) :
    (scanned (fun s c => if c = 0 then none else some (s ++ [c])) s b).map Prod.fst =
      (bufferString b).map (s ++ ·) := by
  induction b generalizing s with
  | nil => rfl
  | cons c b ih =>
      rw [scanned]
      by_cases hc : c = 0
      · simp [hc, bufferString, Lib.cString]
      · simp [hc, ih, bufferString, Lib.cString, Ne.symm hc]

theorem result_cString (a : ι) (c : Cursor UInt8) : (cString a c).result = bufferString c.rest := by
  have hscan := congrArg (Option.map Prod.fst) (result_scan a
    (fun s b => if b = 0 then none else some (s ++ [b])) [] c.index c.rest)
  rw [scanned_cString, Option.map_map] at hscan
  rw [cString, result_map]
  exact hscan.trans (by simp)

theorem scanned_skipSpace (b : Bytes) :
    (scanned (fun _ c => if isSpace c then some () else none) () b).map Prod.snd = Lib.skipSpace b := by
  induction b with
  | nil => rfl
  | cons c b ih =>
      rw [scanned, Lib.skipSpace]
      cases isSpace c with
      | true => exact ih
      | false => rfl

theorem result_skipSpace (a : ι) (c : Cursor UInt8) :
    (skipSpace a c).result.map Cursor.rest = Lib.skipSpace c.rest := by
  have hscan := congrArg (Option.map Prod.snd) (result_scan a
    (fun _ b => if isSpace b then some () else none) () c.index c.rest)
  rw [scanned_skipSpace, Option.map_map] at hscan
  rw [skipSpace, result_map, ← hscan, Option.map_map]
  rfl

theorem result_scanSign (a : ι) (c : Cursor UInt8) (hc : c.rest ≠ []) :
    (scanSign a c).result.map (fun r => (r.1, r.2.rest)) = some (Lib.scanSign c.rest) := by
  obtain ⟨i, rest⟩ := c
  obtain ⟨b, rest, rfl⟩ := List.exists_cons_of_ne_nil hc
  rw [scanSign, result_bind, Lib.scanSign]
  show Option.map _ (some (if b = 45 then _ else _)) = _
  split
  · rfl
  · split <;> rfl

theorem result_skipHexPrefix (a : ι) (base : Nat) (c : Cursor UInt8) :
    (skipHexPrefix a base c).result.map Cursor.rest = Lib.skipHexPrefix base c.rest := by
  obtain ⟨i, rest⟩ := c
  match rest with
  | [] => rfl
  | [b] =>
      rw [skipHexPrefix, result_bind, Lib.skipHexPrefix]
      show Option.map Cursor.rest (if base = 16 ∧ b = 48 then _ else _ : Probe ι _).result = _
      split <;> rfl
  | b :: x :: rest =>
      rw [skipHexPrefix, result_bind, Lib.skipHexPrefix]
      show Option.map Cursor.rest (if base = 16 ∧ b = 48 then _ else _ : Probe ι _).result = _
      split
      · rename_i hb
        show Option.map Cursor.rest (some (if x = 120 ∨ x = 88 then _ else _)) = _
        split
        · rename_i hx
          rw [if_pos ⟨hb.1, hb.2, hx⟩]
          rfl
        · rename_i hx
          rw [if_neg fun h => hx h.2.2]
          rfl
      · rename_i hb
        rw [if_neg fun h => hb ⟨h.1, h.2.1⟩]
        rfl

theorem scanned_scanDigits (base acc : Nat) (b : Bytes) :
    scanned (fun acc c => (digitValue base c).map fun d => acc * base + d) acc b =
      Lib.scanDigits base acc b := by
  induction b generalizing acc with
  | nil => rfl
  | cons c b ih =>
      rw [scanned, Lib.scanDigits]
      cases digitValue base c with
      | none => rfl
      | some d => exact ih _

theorem result_scanDigits (a : ι) (base : Nat) (c : Cursor UInt8) :
    (scanDigits a base c).result.map (fun r => (r.1, r.2.rest)) = Lib.scanDigits base 0 c.rest := by
  rw [scanDigits, result_scan, scanned_scanDigits]

theorem skipSpace_ne_nil {b rest : Bytes} (h : Lib.skipSpace b = some rest) : rest ≠ [] := by
  induction b with
  | nil => cases h
  | cons c b ih =>
      rw [Lib.skipSpace] at h
      split at h
      · exact ih h
      · cases h
        exact List.cons_ne_nil c b

theorem result_strtol (a : ι) (base : Nat) (c : Cursor UInt8) :
    (strtol a base c).result = Lib.strtol base c.rest := by
  have hspace := result_skipSpace a c
  rw [strtol, result_bind, Lib.strtol]
  cases h1 : (skipSpace a c).result with
  | none =>
      rw [h1] at hspace
      rw [← hspace]
      rfl
  | some c1 =>
      rw [h1] at hspace
      have hsign := result_scanSign a c1 (skipSpace_ne_nil hspace.symm)
      obtain ⟨⟨negative, c2⟩, h2, hc2⟩ := Option.map_eq_some_iff.mp hsign
      have hprefix := result_skipHexPrefix a base c2
      rw [← hspace]
      show ((scanSign a c1) >>= _).result =
        (Lib.skipHexPrefix base (Lib.scanSign c1.rest).2).bind fun b =>
          (Lib.scanDigits base 0 b).bind fun r =>
            some (clampLong (if (Lib.scanSign c1.rest).1 then -(r.1 : Int) else r.1))
      rw [← hc2, ← hprefix, result_bind, h2]
      show ((skipHexPrefix a base c2) >>= _).result = _
      rw [result_bind]
      cases h3 : (skipHexPrefix a base c2).result with
      | none => rfl
      | some c3 =>
          have hdigits := result_scanDigits a base c3
          show ((scanDigits a base c3) >>= _).result = (Lib.scanDigits base 0 c3.rest).bind _
          rw [← hdigits, result_bind]
          cases (scanDigits a base c3).result <;> rfl

/-! ## 3. What they read -/

variable {size : ι → Nat} {a : ι} {c : Cursor UInt8}

theorem exact_cString (h : c.Ends (size a)) : Exact size (cString a c) :=
  exact_map (exact_scan _ h) _

theorem exact_skipSpace (h : c.Ends (size a)) : Exact size (skipSpace a c) :=
  exact_map (exact_scan _ h) _

theorem ends_of_skipSpace {n : Nat} {c' : Cursor UInt8} (h : c.Ends n)
    (hc' : (skipSpace a c).result = some c') : c'.Ends n := by
  rw [skipSpace, result_map] at hc'
  obtain ⟨r, hr, rfl⟩ := Option.map_eq_some_iff.mp hc'
  exact ends_of_scan h hr

theorem exact_scanSign (h : c.Ends (size a)) : Exact size (scanSign a c) :=
  exact_bind (exact_peek h) fun _ _ => exact_pure _

theorem ends_of_scanSign {n : Nat} {r : Bool × Cursor UInt8} (h : c.Ends n)
    (hr : (scanSign a c).result = some r) : r.2.Ends n := by
  rw [scanSign, result_bind] at hr
  obtain ⟨b, hb, hr⟩ := Option.bind_eq_some_iff.mp hr
  have hnext := h.advance (ne_nil_of_peek hb)
  cases hr
  split
  · exact hnext
  · split
    · exact hnext
    · exact h

theorem exact_skipHexPrefix (base : Nat) (h : c.Ends (size a)) : Exact size (skipHexPrefix a base c) := by
  refine exact_bind (exact_peek h) fun b hb => ?_
  split
  · exact exact_bind (exact_peek (h.advance (ne_nil_of_peek hb))) fun _ _ => exact_pure _
  · exact exact_pure c

theorem ends_of_skipHexPrefix {base n : Nat} {c' : Cursor UInt8} (h : c.Ends n)
    (hc' : (skipHexPrefix a base c).result = some c') : c'.Ends n := by
  rw [skipHexPrefix, result_bind] at hc'
  obtain ⟨b, hb, hrest⟩ := Option.bind_eq_some_iff.mp hc'
  have hnext := h.advance (ne_nil_of_peek hb)
  split at hrest
  · rw [result_bind] at hrest
    obtain ⟨x, hx, hrest⟩ := Option.bind_eq_some_iff.mp hrest
    cases hrest
    split
    · exact hnext.advance (ne_nil_of_peek hx)
    · exact h
  · cases hrest
    exact h

theorem exact_scanDigits (base : Nat) (h : c.Ends (size a)) : Exact size (scanDigits a base c) :=
  exact_scan _ h

/-- `strtol` has a result exactly when it reads inside its array. -/
theorem exact_strtol (base : Nat) (h : c.Ends (size a)) : Exact size (strtol a base c) := by
  refine exact_bind (exact_skipSpace h) fun c1 h1 => ?_
  have hc1 := ends_of_skipSpace h h1
  refine exact_bind (exact_scanSign hc1) fun r h2 => ?_
  have hc2 := ends_of_scanSign hc1 h2
  refine exact_bind (exact_skipHexPrefix base hc2) fun c3 h3 => ?_
  have hc3 := ends_of_skipHexPrefix hc2 h3
  exact exact_bind (exact_scanDigits base hc3) fun _ _ => exact_pure _

end Probe

/-! ## 4. Memory without an end -/

/-- White space, a sign, a prefix and digits of base 16 and nothing behind them. Each may be absent. -/
def RunsOff (b : Bytes) : Prop :=
  ∃ spaces sign pre digits, b = spaces ++ sign ++ pre ++ digits ∧
    (∀ c ∈ spaces, isSpace c = true) ∧ (sign = [] ∨ sign = [45] ∨ sign = [43]) ∧
    (pre = [] ∨ pre = [48, 120] ∨ pre = [48, 88]) ∧ ∀ c ∈ digits, (digitValue 16 c).isSome

theorem skipSpace_append {spaces : Bytes} (h : ∀ c ∈ spaces, isSpace c = true) (b : Bytes) :
    skipSpace (spaces ++ b) = skipSpace b := by
  induction spaces with
  | nil => rfl
  | cons c spaces ih =>
      obtain ⟨hc, hspaces⟩ := List.forall_mem_cons.mp h
      rw [List.cons_append, skipSpace, if_pos hc, ih hspaces]

theorem skipSpace_of_head {c : UInt8} (hc : isSpace c = false) (b : Bytes) :
    skipSpace (c :: b) = some (c :: b) := by
  rw [skipSpace, hc]
  rfl

/-- Every text is white space and what starts with another character. -/
theorem split_spaces (b : Bytes) : ∃ spaces rest, b = spaces ++ rest ∧
    (∀ c ∈ spaces, isSpace c = true) ∧ ∀ c ∈ rest.head?, isSpace c = false := by
  induction b with
  | nil => exact ⟨[], [], rfl, nofun, nofun⟩
  | cons c b ih =>
      cases hc : isSpace c with
      | true =>
          obtain ⟨spaces, rest, rfl, hspaces, hrest⟩ := ih
          exact ⟨c :: spaces, rest, rfl, List.forall_mem_cons.mpr ⟨hc, hspaces⟩, hrest⟩
      | false =>
          refine ⟨[], c :: b, rfl, nofun, ?_⟩
          rintro _ ⟨⟩
          exact hc

/-- Every text is a sign, if it starts with one, and the rest. -/
theorem split_sign (b : Bytes) :
    ∃ sign, b = sign ++ (scanSign b).2 ∧ (sign = [] ∨ sign = [45] ∨ sign = [43]) := by
  cases b with
  | nil => exact ⟨[], rfl, .inl rfl⟩
  | cons c b =>
      rw [scanSign]
      split
      · rename_i hc
        exact ⟨[45], by rw [hc]; rfl, .inr (.inl rfl)⟩
      · split
        · rename_i hc
          exact ⟨[43], by rw [hc]; rfl, .inr (.inr rfl)⟩
        · exact ⟨[], rfl, .inl rfl⟩

theorem scanDigits_eq_none {base acc : Nat} {b : Bytes} :
    scanDigits base acc b = none ↔ ∀ c ∈ b, (digitValue base c).isSome := by
  induction b generalizing acc with
  | nil => simp [scanDigits]
  | cons c b ih =>
      rw [scanDigits, List.forall_mem_cons]
      cases digitValue base c with
      | none => simp
      | some d => simpa using ih

/-- A digit of base 16 is no white space, no sign and no prefix letter. -/
theorem digitValue_spec {c : UInt8} (h : (digitValue 16 c).isSome) :
    isSpace c = false ∧ c ≠ 45 ∧ c ≠ 43 ∧ c ≠ 120 ∧ c ≠ 88 := by
  refine ⟨?_, ?_, ?_, ?_, ?_⟩
  · by_contra hspace
    have hlow : c ≤ 32 := by
      simp only [isSpace, Bool.not_eq_false, Bool.or_eq_true, beq_iff_eq, Bool.and_eq_true,
        decide_eq_true_eq] at hspace
      rcases hspace with rfl | ⟨-, hle⟩
      · exact UInt8.le_refl 32
      · exact UInt8.le_trans hle (by decide)
    have hno : ∀ d : UInt8, 48 ≤ d → ¬ d ≤ c := fun d hd hdc =>
      absurd (UInt8.le_trans hd (UInt8.le_trans hdc hlow)) (by decide)
    simp [digitValue, hno 48 (by decide), hno 97 (by decide), hno 65 (by decide)] at h
  all_goals
    rintro rfl
    exact absurd h (by decide)

/-- The number behind white space and sign has no end. -/
def Endless (b : Bytes) : Prop := (skipHexPrefix 16 b).bind (scanDigits 16 0) = none

theorem strtol_eq_none_iff {b : Bytes} : strtol 16 b = none ↔
    ∀ rest, skipSpace b = some rest → Endless (scanSign rest).2 := by
  rw [strtol]
  cases skipSpace b with
  | none => exact iff_of_true rfl nofun
  | some rest =>
      have hrest : (∀ r, some rest = some r → Endless (scanSign r).2) ↔ Endless (scanSign rest).2 :=
        ⟨fun h => h rest rfl, fun h r hr => Option.some.inj hr ▸ h⟩
      rw [hrest, Endless]
      show (skipHexPrefix 16 (scanSign rest).2).bind (fun b => (scanDigits 16 0 b).bind _) = none ↔ _
      cases skipHexPrefix 16 (scanSign rest).2 with
      | none => exact iff_of_true rfl rfl
      | some b =>
          rw [Option.bind_some, Option.bind_some]
          cases scanDigits 16 0 b with
          | none => exact iff_of_true rfl rfl
          | some r => exact iff_of_false nofun nofun

/-- A prefix in front of digits. -/
theorem endless_hex {x : UInt8} (hx : x = 120 ∨ x = 88) (b : Bytes) :
    Endless (48 :: x :: b) ↔ ∀ c ∈ b, (digitValue 16 c).isSome := by
  rw [Endless, skipHexPrefix, if_pos ⟨rfl, rfl, hx⟩, Option.bind_some, scanDigits_eq_none]

/-- No prefix. -/
theorem endless_plain {b : Bytes} (hb : ¬ ∃ x rest, b = 48 :: x :: rest ∧ (x = 120 ∨ x = 88)) :
    Endless b ↔ ∀ c ∈ b, (digitValue 16 c).isSome := by
  match b with
  | [] => exact iff_of_true rfl nofun
  | [c] =>
      rw [Endless, skipHexPrefix]
      split
      · rename_i hc
        refine iff_of_true rfl fun d hd => ?_
        rw [List.mem_singleton.mp hd, hc.2]
        decide
      · rw [Option.bind_some, scanDigits_eq_none]
  | c :: x :: b =>
      have hx : ¬ (16 = 16 ∧ c = 48 ∧ (x = 120 ∨ x = 88)) := by
        rintro ⟨-, rfl, hx⟩
        exact hb ⟨x, b, rfl, hx⟩
      rw [Endless, skipHexPrefix, if_neg hx, Option.bind_some, scanDigits_eq_none]

theorem endless_iff {b : Bytes} : Endless b ↔ ∃ pre digits, b = pre ++ digits ∧
    (pre = [] ∨ pre = [48, 120] ∨ pre = [48, 88]) ∧ ∀ c ∈ digits, (digitValue 16 c).isSome := by
  constructor
  · intro h
    by_cases hb : ∃ x rest, b = 48 :: x :: rest ∧ (x = 120 ∨ x = 88)
    · obtain ⟨x, rest, rfl, hx⟩ := hb
      refine ⟨[48, x], rest, rfl, ?_, (endless_hex hx rest).mp h⟩
      rcases hx with rfl | rfl
      · exact .inr (.inl rfl)
      · exact .inr (.inr rfl)
    · exact ⟨[], b, rfl, .inl rfl, (endless_plain hb).mp h⟩
  · rintro ⟨pre, digits, rfl, rfl | rfl | rfl, hdigits⟩
    · refine (endless_plain ?_).mpr hdigits
      rintro ⟨x, rest, rfl, hx⟩
      have hspec := digitValue_spec (hdigits x (by simp))
      exact not_or.mpr ⟨hspec.2.2.2.1, hspec.2.2.2.2⟩ hx
    · exact (endless_hex (.inl rfl) digits).mpr hdigits
    · exact (endless_hex (.inr rfl) digits).mpr hdigits

/-- A number starts with neither a space nor a sign. -/
theorem head_number {pre digits : Bytes} (hpre : pre = [] ∨ pre = [48, 120] ∨ pre = [48, 88])
    (hdigits : ∀ c ∈ digits, (digitValue 16 c).isSome) :
    ∀ c ∈ (pre ++ digits).head?, isSpace c = false ∧ c ≠ 45 ∧ c ≠ 43 := by
  rcases hpre with rfl | rfl | rfl
  · intro c hc
    have hspec := digitValue_spec (hdigits c (List.mem_of_mem_head? hc))
    exact ⟨hspec.1, hspec.2.1, hspec.2.2.1⟩
  all_goals
    rintro _ ⟨⟩
    decide

/-- Behind the sign is the number. -/
theorem scanSign_number {sign number rest : Bytes} (hsign : sign = [] ∨ sign = [45] ∨ sign = [43])
    (hhead : ∀ c ∈ number.head?, isSpace c = false ∧ c ≠ 45 ∧ c ≠ 43)
    (hrest : skipSpace (sign ++ number) = some rest) : (scanSign rest).2 = number := by
  rcases hsign with rfl | rfl | rfl
  · cases number with
    | nil => cases hrest
    | cons c b =>
        obtain ⟨hspace, hminus, hplus⟩ := hhead c rfl
        rw [List.nil_append, skipSpace_of_head hspace] at hrest
        cases hrest
        rw [scanSign, if_neg hminus, if_neg hplus]
  all_goals
    cases hrest
    rfl

theorem strtol_eq_none {b : Bytes} : strtol 16 b = none ↔ RunsOff b := by
  rw [strtol_eq_none_iff]
  constructor
  · intro h
    obtain ⟨spaces, rest, rfl, hspaces, hrest⟩ := split_spaces b
    rw [skipSpace_append hspaces] at h
    cases rest with
    | nil => exact ⟨spaces, [], [], [], by simp, hspaces, .inl rfl, .inl rfl, nofun⟩
    | cons c rest =>
        obtain ⟨sign, hsplit, hsign⟩ := split_sign (c :: rest)
        obtain ⟨pre, digits, hnumber, hpre, hdigits⟩ :=
          endless_iff.mp (h _ (skipSpace_of_head (hrest c rfl) rest))
        refine ⟨spaces, sign, pre, digits, ?_, hspaces, hsign, hpre, hdigits⟩
        rw [hsplit, hnumber]
        simp
  · rintro ⟨spaces, sign, pre, digits, rfl, hspaces, hsign, hpre, hdigits⟩ rest hrest
    rw [List.append_assoc, List.append_assoc, skipSpace_append hspaces] at hrest
    have hnumber : (scanSign rest).2 = pre ++ digits :=
      scanSign_number hsign (head_number hpre hdigits) hrest
    exact endless_iff.mpr ⟨pre, digits, hnumber, hpre, hdigits⟩

/-- A NUL is an end. -/
theorem RunsOff.nulFree {b : Bytes} (h : RunsOff b) : NulFree b := by
  obtain ⟨spaces, sign, pre, digits, rfl, hspaces, hsign, hpre, hdigits⟩ := h
  intro c hc
  rw [List.append_assoc, List.append_assoc, List.mem_append, List.mem_append, List.mem_append] at hc
  rintro rfl
  rcases hc with hc | hc | hc | hc
  · exact absurd (hspaces 0 hc) (by decide)
  · rcases hsign with rfl | rfl | rfl <;> simp at hc
  · rcases hpre with rfl | rfl | rfl <;> simp at hc
  · exact absurd (hdigits 0 hc) (by decide)

end Lib
