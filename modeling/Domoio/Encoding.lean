import Domoio.Scanning

/-
  File:      Domoio/Encoding.lean
  Subject:   The strings of JSON documents: what the writer escapes and the reader decodes.

  The writer turns every two- or three-byte sequence into the escape of its number, the reader encodes
  that number again (`reread`). So a sequence that was longer than need be comes back shorter, and what is
  encoded in the shortest way comes back as it was (`string_exact`).
-/

namespace Domoio

open Lib Reader

/-! ## 1. Written and read -/

/-- A string as it comes back: the number of each two- or three-byte sequence, encoded again. -/
def reread : Bytes → Bytes
  | [] => []
  | [c] => [c]
  | [c, d] =>
      if c &&& 0xe0 = 0xc0 ∧ d &&& 0xc0 = 0x80 then
        utf8 ((c &&& 0x1f).toNat * 64 + (d &&& 0x3f).toNat)
      else c :: reread [d]
  | c :: d :: e :: cs =>
      if c &&& 0xe0 = 0xc0 ∧ d &&& 0xc0 = 0x80 then
        utf8 ((c &&& 0x1f).toNat * 64 + (d &&& 0x3f).toNat) ++ reread (e :: cs)
      else if c &&& 0xf0 = 0xe0 ∧ d &&& 0xc0 = 0x80 ∧ e &&& 0xc0 = 0x80 then
        utf8 ((c &&& 0x0f).toNat * 4096 + (d &&& 0x3f).toNat * 64 + (e &&& 0x3f).toNat) ++ reread cs
      else c :: reread (d :: e :: cs)

theorem escapeChar_spelling (c : UInt8) : CharSpelling [c] (Writer.escapeChar c) := by
  unfold Writer.escapeChar
  split_ifs with h₁ h₂ h₃ h₄ h₅ h₆ h₇
  · subst h₁
    exact .escape rfl
  · subst h₂
    exact .escape rfl
  · subst h₃
    exact .escape rfl
  · subst h₄
    exact .escape rfl
  · subst h₅
    exact .escape rfl
  · subst h₆
    exact .escape rfl
  · subst h₇
    exact .escape rfl
  · exact .plain h₁ h₂

/-- The digits the writer uses are those the reader knows. -/
theorem hexValue_digit : ∀ n < 16,
    hexValue (if n < 10 then UInt8.ofNat (48 + n) else UInt8.ofNat (87 + n)) = some n := by
  decide

theorem escapeUnicode_spelling {x : Nat} (hx : x < 65536) :
    CharSpelling (utf8 x) (Writer.escapeUnicode x) := by
  refine .unicode rfl ?_
  have hmod : ∀ n, n % 16 < 16 := fun n => Nat.mod_lt n (by decide)
  simp only [hexFold, hexValue_digit _ (hmod _), Option.bind_some, Option.some.injEq]
  omega

theorem toNat_and_le (c mask : UInt8) : (c &&& mask).toNat ≤ mask.toNat := by
  rw [UInt8.toNat_and]
  exact Nat.and_le_right

theorem chars_spelling (s : Bytes) : CharsSpelling (reread s) (Writer.chars s) := by
  have htwo : ∀ c d : UInt8, (c &&& 0x1f).toNat * 64 + (d &&& 0x3f).toNat < 65536 := by
    intro c d
    have hc : (c &&& 0x1f).toNat ≤ 31 := toNat_and_le c 0x1f
    have hd : (d &&& 0x3f).toNat ≤ 63 := toNat_and_le d 0x3f
    omega
  fun_induction reread s with
  | case1 => exact .nil
  | case2 c =>
      have hone := CharsSpelling.cons (escapeChar_spelling c) .nil
      rwa [List.append_nil, List.append_nil] at hone
  | case3 c d h =>
      rw [Writer.chars, if_pos h]
      have hone := CharsSpelling.cons (escapeUnicode_spelling (htwo c d)) .nil
      rwa [List.append_nil, List.append_nil] at hone
  | case4 c d h ih =>
      rw [Writer.chars, if_neg h]
      exact .cons (escapeChar_spelling c) ih
  | case5 c d e cs h ih =>
      rw [Writer.chars, if_pos h]
      exact .cons (escapeUnicode_spelling (htwo c d)) ih
  | case6 c d e cs h h' ih =>
      rw [Writer.chars, if_neg h, if_pos h']
      have hc : (c &&& 0x0f).toNat ≤ 15 := toNat_and_le c 0x0f
      have hd : (d &&& 0x3f).toNat ≤ 63 := toNat_and_le d 0x3f
      have he : (e &&& 0x3f).toNat ≤ 63 := toNat_and_le e 0x3f
      exact .cons (escapeUnicode_spelling (by omega)) ih
  | case7 c d e cs h h' ih =>
      rw [Writer.chars, if_neg h, if_neg h']
      exact .cons (escapeChar_spelling c) ih

/-! ## 2. What comes back unchanged -/

/-- No two- or three-byte sequence encodes what has a shorter encoding. -/
def shortest : Bytes → Bool
  | [] => true
  | [_] => true
  | [c, d] =>
      if c &&& 0xe0 = 0xc0 ∧ d &&& 0xc0 = 0x80 then
        decide (0x80 ≤ (c &&& 0x1f).toNat * 64 + (d &&& 0x3f).toNat)
      else true
  | c :: d :: e :: cs =>
      if c &&& 0xe0 = 0xc0 ∧ d &&& 0xc0 = 0x80 then
        decide (0x80 ≤ (c &&& 0x1f).toNat * 64 + (d &&& 0x3f).toNat) && shortest (e :: cs)
      else if c &&& 0xf0 = 0xe0 ∧ d &&& 0xc0 = 0x80 ∧ e &&& 0xc0 = 0x80 then
        decide (0x800 ≤ (c &&& 0x0f).toNat * 4096 + (d &&& 0x3f).toNat * 64 + (e &&& 0x3f).toNat) &&
          shortest cs
      else shortest (d :: e :: cs)

theorem lead_two : ∀ c : UInt8, c &&& 0xe0 = 0xc0 → 0xc0 + (c &&& 0x1f).toNat = c.toNat :=
  forall_byte (by decide +kernel)

theorem lead_three : ∀ c : UInt8, c &&& 0xf0 = 0xe0 → 0xe0 + (c &&& 0x0f).toNat = c.toNat :=
  forall_byte (by decide +kernel)

theorem continuation : ∀ c : UInt8, c &&& 0xc0 = 0x80 → 0x80 + (c &&& 0x3f).toNat = c.toNat :=
  forall_byte (by decide +kernel)

/-- A two-byte sequence is encoded as it was, unless a byte would have been enough. -/
theorem utf8_two {c d : UInt8} (hc : c &&& 0xe0 = 0xc0) (hd : d &&& 0xc0 = 0x80) :
    let x := (c &&& 0x1f).toNat * 64 + (d &&& 0x3f).toNat
    (0x80 ≤ x ∧ utf8 x = [c, d]) ∨ (x < 0x80 ∧ (utf8 x).length = 1) := by
  intro x
  have hlead := lead_two c hc
  have hcont := continuation d hd
  have hc31 : (c &&& 0x1f).toNat ≤ 31 := toNat_and_le c 0x1f
  have hd63 : (d &&& 0x3f).toNat ≤ 63 := toNat_and_le d 0x3f
  have hx : x = (c &&& 0x1f).toNat * 64 + (d &&& 0x3f).toNat := rfl
  rcases Nat.lt_or_ge x 0x80 with hlt | hge
  · exact .inr ⟨hlt, by rw [utf8, if_pos hlt]; rfl⟩
  · refine .inl ⟨hge, ?_⟩
    have hfirst : 0xc0 + x / 64 = c.toNat := by omega
    have hsecond : 0x80 + x % 64 = d.toNat := by omega
    rw [utf8, if_neg (by omega), if_pos (by omega), hfirst, hsecond, UInt8.ofNat_toNat,
      UInt8.ofNat_toNat]

/-- A three-byte sequence is encoded as it was, unless fewer bytes would have been enough. -/
theorem utf8_three {c d e : UInt8} (hc : c &&& 0xf0 = 0xe0) (hd : d &&& 0xc0 = 0x80)
    (he : e &&& 0xc0 = 0x80) :
    let x := (c &&& 0x0f).toNat * 4096 + (d &&& 0x3f).toNat * 64 + (e &&& 0x3f).toNat
    (0x800 ≤ x ∧ utf8 x = [c, d, e]) ∨ (x < 0x800 ∧ (utf8 x).length ≤ 2) := by
  intro x
  have hlead := lead_three c hc
  have hcontd := continuation d hd
  have hconte := continuation e he
  have hc15 : (c &&& 0x0f).toNat ≤ 15 := toNat_and_le c 0x0f
  have hd63 : (d &&& 0x3f).toNat ≤ 63 := toNat_and_le d 0x3f
  have he63 : (e &&& 0x3f).toNat ≤ 63 := toNat_and_le e 0x3f
  have hx : x = (c &&& 0x0f).toNat * 4096 + (d &&& 0x3f).toNat * 64 + (e &&& 0x3f).toNat := rfl
  rcases Nat.lt_or_ge x 0x800 with hlt | hge
  · refine .inr ⟨hlt, ?_⟩
    unfold utf8
    split_ifs <;> simp
  · refine .inl ⟨hge, ?_⟩
    have hfirst : 0xe0 + x / 4096 = c.toNat := by omega
    have hsecond : 0x80 + x / 64 % 64 = d.toNat := by omega
    have hthird : 0x80 + x % 64 = e.toNat := by omega
    rw [utf8, if_neg (by omega), if_neg (by omega), hfirst, hsecond, hthird, UInt8.ofNat_toNat,
      UInt8.ofNat_toNat, UInt8.ofNat_toNat]

/-- A string comes back as it was, or shorter. -/
theorem reread_cases (s : Bytes) :
    (shortest s = true ∧ reread s = s) ∨ (shortest s = false ∧ (reread s).length < s.length) := by
  fun_induction reread s with
  | case1 => exact .inl ⟨rfl, rfl⟩
  | case2 c => exact .inl ⟨rfl, rfl⟩
  | case3 c d h =>
      rw [shortest, if_pos h]
      rcases utf8_two h.1 h.2 with ⟨hx, hsame⟩ | ⟨hx, hlen⟩
      · exact .inl ⟨decide_eq_true hx, hsame⟩
      · exact .inr ⟨decide_eq_false (Nat.not_le.mpr hx), by rw [hlen]; exact Nat.one_lt_two⟩
  | case4 c d h ih =>
      rw [shortest, if_neg h]
      exact .inl ⟨rfl, rfl⟩
  | case5 c d e cs h ih =>
      rw [shortest, if_pos h, Bool.and_eq_true, Bool.and_eq_false_iff, decide_eq_true_eq,
        decide_eq_false_iff_not, Nat.not_le, List.length_append]
      simp only [List.length_cons] at ih ⊢
      rcases utf8_two h.1 h.2 with ⟨hx, hsame⟩ | ⟨hx, hlen⟩
      · rw [hsame]
        rcases ih with ⟨hs, hih⟩ | ⟨hs, hih⟩
        · exact .inl ⟨⟨hx, hs⟩, by rw [hih]; rfl⟩
        · exact .inr ⟨.inr hs, by simp only [List.length_cons, List.length_nil]; omega⟩
      · refine .inr ⟨.inl hx, ?_⟩
        rcases ih with ⟨-, hih⟩ | ⟨-, hih⟩
        · rw [hih, hlen]
          simp only [List.length_cons]
          omega
        · omega
  | case6 c d e cs h h' ih =>
      rw [shortest, if_neg h, if_pos h', Bool.and_eq_true, Bool.and_eq_false_iff, decide_eq_true_eq,
        decide_eq_false_iff_not, Nat.not_le, List.length_append]
      simp only [List.length_cons] at ih ⊢
      rcases utf8_three h'.1 h'.2.1 h'.2.2 with ⟨hx, hsame⟩ | ⟨hx, hlen⟩
      · rw [hsame]
        rcases ih with ⟨hs, hih⟩ | ⟨hs, hih⟩
        · exact .inl ⟨⟨hx, hs⟩, by rw [hih]; rfl⟩
        · exact .inr ⟨.inr hs, by simp only [List.length_cons, List.length_nil]; omega⟩
      · refine .inr ⟨.inl hx, ?_⟩
        rcases ih with ⟨-, hih⟩ | ⟨-, hih⟩
        · rw [hih]
          omega
        · omega
  | case7 c d e cs h h' ih =>
      rw [shortest, if_neg h, if_neg h']
      rcases ih with ⟨hs, hsame⟩ | ⟨hs, hlen⟩
      · exact .inl ⟨hs, by rw [hsame]⟩
      · exact .inr ⟨hs, Nat.succ_lt_succ hlen⟩

theorem reread_eq_self_iff {s : Bytes} : reread s = s ↔ shortest s = true := by
  rcases reread_cases s with ⟨hs, hsame⟩ | ⟨hs, hlen⟩
  · exact ⟨fun _ => hs, fun _ => hsame⟩
  · constructor
    · intro hsame
      rw [hsame] at hlen
      exact absurd hlen (Nat.lt_irrefl _)
    · intro h
      cases hs.symm.trans h

/-- The byte begins no two- or three-byte sequence. -/
def NoLead (c : UInt8) : Prop := c &&& 0xe0 ≠ 0xc0 ∧ c &&& 0xf0 ≠ 0xe0

instance (c : UInt8) : Decidable (NoLead c) := inferInstanceAs (Decidable (_ ∧ _))

theorem shortest_cons {c : UInt8} (hc : NoLead c) (cs : Bytes) : shortest (c :: cs) = shortest cs := by
  have htwo : ∀ d : UInt8, ¬ (c &&& 0xe0 = 0xc0 ∧ d &&& 0xc0 = 0x80) := fun d h => hc.1 h.1
  have hthree : ∀ d e : UInt8, ¬ (c &&& 0xf0 = 0xe0 ∧ d &&& 0xc0 = 0x80 ∧ e &&& 0xc0 = 0x80) :=
    fun d e h => hc.2 h.1
  rcases cs with _ | ⟨d, _ | ⟨e, cs⟩⟩
  · rfl
  · simp [shortest, htwo d]
  · rw [shortest, if_neg (htwo d), if_neg (hthree d e)]

theorem shortest_two {c d : UInt8} (hc : c &&& 0xe0 = 0xc0) (hd : d &&& 0xc0 = 0x80)
    (hx : 0x80 ≤ (c &&& 0x1f).toNat * 64 + (d &&& 0x3f).toNat) (cs : Bytes) :
    shortest (c :: d :: cs) = shortest cs := by
  cases cs with
  | nil =>
      have hpair : shortest [c, d] = true := by
        rw [shortest, if_pos ⟨hc, hd⟩, decide_eq_true hx]
      exact hpair
  | cons e cs => rw [shortest, if_pos ⟨hc, hd⟩, decide_eq_true hx, Bool.true_and]

theorem shortest_three {c d e : UInt8} (hc : c &&& 0xf0 = 0xe0) (hd : d &&& 0xc0 = 0x80)
    (he : e &&& 0xc0 = 0x80)
    (hx : 0x800 ≤ (c &&& 0x0f).toNat * 4096 + (d &&& 0x3f).toNat * 64 + (e &&& 0x3f).toNat)
    (cs : Bytes) : shortest (c :: d :: e :: cs) = shortest cs := by
  have hnot : ¬ (c &&& 0xe0 = 0xc0 ∧ d &&& 0xc0 = 0x80) := by
    have hlead : ∀ c : UInt8, c &&& 0xf0 = 0xe0 → c &&& 0xe0 ≠ 0xc0 := forall_byte (by decide +kernel)
    exact fun h => hlead c hc h.1
  rw [shortest, if_neg hnot, if_pos ⟨hc, hd, he⟩, decide_eq_true hx, Bool.true_and]

theorem byte_plain : ∀ n ≤ 0x7f, NoLead (UInt8.ofNat n) := by decide +kernel

theorem byte_lead_two : ∀ n < 0x20, UInt8.ofNat (n + 0xc0) &&& 0xe0 = 0xc0 ∧
    (UInt8.ofNat (n + 0xc0) &&& 0x1f).toNat = n := by decide +kernel

theorem byte_lead_three : ∀ n < 0x10, UInt8.ofNat (n + 0xe0) &&& 0xf0 = 0xe0 ∧
    (UInt8.ofNat (n + 0xe0) &&& 0x0f).toNat = n := by decide +kernel

theorem byte_lead_four : ∀ n < 0x08, NoLead (UInt8.ofNat (n + 0xf0)) := by decide +kernel

theorem byte_continuation : ∀ n < 0x40, UInt8.ofNat (n + 0x80) &&& 0xc0 = 0x80 ∧
    (UInt8.ofNat (n + 0x80) &&& 0x3f).toNat = n ∧ NoLead (UInt8.ofNat (n + 0x80)) := by decide +kernel

theorem shortest_char (c : Char) (cs : Bytes) :
    shortest (String.utf8EncodeChar c ++ cs) = shortest cs := by
  have hcont : ∀ v, v % 0x40 < 0x40 := fun v => Nat.mod_lt v (by decide)
  unfold String.utf8EncodeChar
  generalize hv : c.val.toNat = v
  simp only
  split_ifs with h₁ h₂ h₃
  · exact shortest_cons (byte_plain v h₁) cs
  · obtain ⟨hlead, hhigh⟩ := byte_lead_two (v / 64 % 0x20) (Nat.mod_lt _ (by decide))
    obtain ⟨hnext, hlow, -⟩ := byte_continuation (v % 0x40) (hcont v)
    refine shortest_two hlead hnext ?_ cs
    rw [hhigh, hlow]
    omega
  · obtain ⟨hlead, hhigh⟩ := byte_lead_three (v / 4096 % 0x10) (Nat.mod_lt _ (by decide))
    obtain ⟨hnext, hmid, -⟩ := byte_continuation (v / 64 % 0x40) (hcont _)
    obtain ⟨hlast, hlow, -⟩ := byte_continuation (v % 0x40) (hcont v)
    refine shortest_three hlead hnext hlast ?_ cs
    rw [hhigh, hmid, hlow]
    omega
  · have hplain := fun n => (byte_continuation (n % 0x40) (hcont n)).2.2
    have hfour := byte_lead_four (v / 262144 % 0x08) (Nat.mod_lt _ (by decide))
    exact (shortest_cons hfour _).trans ((shortest_cons (hplain _) _).trans
      ((shortest_cons (hplain _) _).trans (shortest_cons (hplain _) cs)))

/-- Text encoded in UTF-8 is encoded in the shortest way. -/
theorem shortest_utf8 (cs : List Char) : shortest (cs.flatMap String.utf8EncodeChar) = true := by
  induction cs with
  | nil => rfl
  | cons c cs ih =>
      rw [List.flatMap_cons, shortest_char]
      exact ih

/-- The byte is one that continues a sequence. -/
def Continues (c : UInt8) : Prop := c &&& 0xc0 = 0x80

theorem Continues.noLead {c : UInt8} (h : Continues c) : NoLead c := by
  have hall : ∀ c : UInt8, c &&& 0xc0 = 0x80 → NoLead c := forall_byte (by decide +kernel)
  exact hall c h

theorem reread_cons {c : UInt8} (hc : NoLead c) (cs : Bytes) : reread (c :: cs) = c :: reread cs := by
  have htwo : ∀ d : UInt8, ¬ (c &&& 0xe0 = 0xc0 ∧ d &&& 0xc0 = 0x80) := fun d h => hc.1 h.1
  have hthree : ∀ d e : UInt8, ¬ (c &&& 0xf0 = 0xe0 ∧ d &&& 0xc0 = 0x80 ∧ e &&& 0xc0 = 0x80) :=
    fun d e h => hc.2 h.1
  rcases cs with _ | ⟨d, _ | ⟨e, cs⟩⟩
  · rfl
  · have hpair : reread [c, d] = [c, d] := by
      rw [reread, if_neg (htwo d)]
      rfl
    exact hpair
  · rw [reread, if_neg (htwo d), if_neg (hthree d e)]

/-- An encoded number begins with no byte that continues. -/
theorem utf8_head (x : Nat) (hx : x < 65536) : ∃ c cs, utf8 x = c :: cs ∧ ¬ Continues c := by
  have hplain : ∀ n < 0x80, ¬ Continues (UInt8.ofNat n) := by
    unfold Continues
    decide +kernel
  have htwo : ∀ n < 0x20, ¬ Continues (UInt8.ofNat (0xc0 + n)) := by
    unfold Continues
    decide +kernel
  have hthree : ∀ n < 0x10, ¬ Continues (UInt8.ofNat (0xe0 + n)) := by
    unfold Continues
    decide +kernel
  unfold utf8
  split_ifs with h₁ h₂
  · exact ⟨_, _, rfl, hplain x h₁⟩
  · exact ⟨_, _, rfl, htwo (x / 64) (by omega)⟩
  · exact ⟨_, _, rfl, hthree (x / 4096) (by omega)⟩

/-- An encoded number in front of a string in the shortest way. -/
theorem shortest_utf8_append (x : Nat) (hx : x < 65536) (cs : Bytes) :
    shortest (utf8 x ++ cs) = shortest cs := by
  unfold utf8
  split_ifs with h₁ h₂
  · exact shortest_cons (byte_plain x (by omega)) cs
  · obtain ⟨hlead, hhigh⟩ := byte_lead_two (x / 64) (by omega)
    obtain ⟨hnext, hlow, -⟩ := byte_continuation (x % 64) (by omega)
    rw [Nat.add_comm 0xc0, Nat.add_comm 0x80]
    refine shortest_two hlead hnext ?_ cs
    rw [hhigh, hlow]
    omega
  · obtain ⟨hlead, hhigh⟩ := byte_lead_three (x / 4096) (by omega)
    obtain ⟨hnext, hmid, -⟩ := byte_continuation (x / 64 % 64) (by omega)
    obtain ⟨hlast, hlow, -⟩ := byte_continuation (x % 64) (by omega)
    rw [Nat.add_comm 0xe0, Nat.add_comm 0x80, Nat.add_comm 0x80]
    refine shortest_three hlead hnext hlast ?_ cs
    rw [hhigh, hmid, hlow]
    omega

theorem two_lt (c d : UInt8) : (c &&& 0x1f).toNat * 64 + (d &&& 0x3f).toNat < 65536 := by
  have hc : (c &&& 0x1f).toNat ≤ 31 := toNat_and_le c 0x1f
  have hd : (d &&& 0x3f).toNat ≤ 63 := toNat_and_le d 0x3f
  omega

theorem three_lt (c d e : UInt8) :
    (c &&& 0x0f).toNat * 4096 + (d &&& 0x3f).toNat * 64 + (e &&& 0x3f).toNat < 65536 := by
  have hc : (c &&& 0x0f).toNat ≤ 15 := toNat_and_le c 0x0f
  have hd : (d &&& 0x3f).toNat ≤ 63 := toNat_and_le d 0x3f
  have he : (e &&& 0x3f).toNat ≤ 63 := toNat_and_le e 0x3f
  omega

/-- What comes back begins with a byte that continues only where the string did. -/
theorem reread_head {c : UInt8} (hc : ¬ Continues c) (cs : Bytes) :
    ∃ d ds, reread (c :: cs) = d :: ds ∧ ¬ Continues d := by
  rcases cs with _ | ⟨d, _ | ⟨e, cs⟩⟩
  · exact ⟨c, [], rfl, hc⟩
  · rw [reread]
    split_ifs with h
    · exact utf8_head _ (two_lt c d)
    · exact ⟨c, _, rfl, hc⟩
  · rw [reread]
    split_ifs with h h'
    · obtain ⟨x, xs, hx, hnot⟩ := utf8_head _ (two_lt c d)
      exact ⟨x, xs ++ reread (e :: cs), by rw [hx]; rfl, hnot⟩
    · obtain ⟨x, xs, hx, hnot⟩ := utf8_head _ (three_lt c d e)
      exact ⟨x, xs ++ reread cs, by rw [hx]; rfl, hnot⟩
    · exact ⟨c, _, rfl, hc⟩

/-- A first byte that begins no sequence here, in front of what comes back. -/
theorem shortest_broken {c d : UInt8} {cs : Bytes} (hd : ¬ Continues d) :
    shortest (c :: d :: cs) = shortest (d :: cs) := by
  cases cs with
  | nil =>
      have hpair : shortest [c, d] = true := by rw [shortest, if_neg fun h => hd h.2]
      exact hpair
  | cons e cs => rw [shortest, if_neg fun h => hd h.2, if_neg fun h => hd h.2.1]

theorem shortest_broken_three {c d e : UInt8} {cs : Bytes} (hc : ¬ c &&& 0xe0 = 0xc0)
    (he : ¬ Continues e) : shortest (c :: d :: e :: cs) = shortest (d :: e :: cs) := by
  rw [shortest, if_neg fun h => hc h.1, if_neg fun h => he h.2.2]

/-- What comes back is encoded in the shortest way. -/
theorem shortest_reread (s : Bytes) : shortest (reread s) = true := by
  fun_induction reread s with
  | case1 => rfl
  | case2 c => rfl
  | case3 c d h =>
      have := shortest_utf8_append _ (two_lt c d) []
      rwa [List.append_nil] at this
  | case4 c d h ih =>
      have hpair : shortest [c, d] = true := by rw [shortest, if_neg h]
      exact hpair
  | case5 c d e cs h ih => rw [shortest_utf8_append _ (two_lt c d), ih]
  | case6 c d e cs h h' ih => rw [shortest_utf8_append _ (three_lt c d e), ih]
  | case7 c d e cs h h' ih =>
      by_cases hd : Continues d
      · have htwo : ¬ c &&& 0xe0 = 0xc0 := fun hc => h ⟨hc, hd⟩
        by_cases he : Continues e
        · have hthree : ¬ c &&& 0xf0 = 0xe0 := fun hc => h' ⟨hc, hd, he⟩
          rw [shortest_cons ⟨htwo, hthree⟩, ih]
        · -- the byte behind the second one continues nothing, and neither does what comes back of it
          obtain ⟨x, xs, hx, hnot⟩ := reread_head he cs
          rw [reread_cons hd.noLead, hx] at ih ⊢
          rw [shortest_broken_three htwo hnot, ih]
      · obtain ⟨x, xs, hx, hnot⟩ := reread_head hd (e :: cs)
        rw [hx] at ih ⊢
        rw [shortest_broken hnot, ih]

/-- The reader takes a written string, whatever follows it. -/
theorem matchString_written (s rest : Bytes) :
    ∃ stream, matchString ((Writer.string s ++ rest).length + 1) ⟨{}, Writer.string s ++ rest⟩ =
        .ok (reread s, stream) ∧ stream.rest = rest := by
  refine ⟨⟨(Writer.string s).foldl Location.next {}, rest⟩, ?_, rfl⟩
  exact ((meets_matchString _).reads _ (fueled_start (Writer.string s ++ rest)) (reread s) _).mpr
    ⟨Writer.string s, ⟨rfl, rfl⟩, Writer.chars s, rfl, chars_spelling s⟩

/-- A written string is read as it was exactly when it is encoded in the shortest way, as all UTF-8 text
    is, and otherwise as a shorter one; what was read once is read as it is. -/
theorem string_exact (s rest : Bytes) :
    (∃ stream, matchString ((Writer.string s ++ rest).length + 1) ⟨{}, Writer.string s ++ rest⟩ =
        .ok (reread s, stream) ∧ stream.rest = rest) ∧
      (reread s = s ↔ shortest s = true) ∧ (reread s ≠ s → (reread s).length < s.length) ∧
      reread (reread s) = reread s ∧
      ∀ cs : List Char, s = cs.flatMap String.utf8EncodeChar → reread s = s := by
  refine ⟨matchString_written s rest, reread_eq_self_iff, fun hne => ?_,
    reread_eq_self_iff.mpr (shortest_reread s), ?_⟩
  · rcases reread_cases s with ⟨-, hsame⟩ | ⟨-, hlength⟩
    · exact absurd hsame hne
    · exact hlength
  · rintro cs rfl
    exact reread_eq_self_iff.mpr (shortest_utf8 cs)

end Domoio
