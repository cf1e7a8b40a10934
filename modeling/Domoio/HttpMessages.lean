import Domoio.Lib.CText
import Domoio.Lib.Numeral

/-
  File:      Domoio/HttpMessages.lean
  Subject:   From bytes to an HTTP message (vendor/mongoose/mongoose.c).

  Section 1 is the code: where a head ends, its words, the headers, the path decoded and made safe.
  Section 2 is about where a head ends, section 3 about paths: what is left of one has no slash behind a
  slash and no two dots behind a slash, and a path like that is left as it is.
-/

namespace Domoio

open Lib

namespace Mongoose

/-! ## 1. The code -/

/-- `isprint` of the C locale. -/
def isPrint (c : UInt8) : Bool := 32 ≤ c && c ≤ 126

/-- The loop of `get_request_len`, at index `i`. -/
def getRequestLenFrom (i : Nat) : Bytes → Int
  | [] => 0
  | c :: rest =>
      if !isPrint c && c != 13 && c != 10 && c < 128 then -1
      else if c = 10 ∧ rest.take 1 = [10] then i + 2
      else if c = 10 ∧ rest.take 2 = [13, 10] then i + 3
      else getRequestLenFrom (i + 1) rest

/-- `get_request_len`: the length of a head with its empty line, 0 where there is none yet, -1 at a
    control character. -/
def getRequestLen (buf : Bytes) : Int := getRequestLenFrom 0 buf

/-- `skip`: a word, and what follows it and its delimiters. -/
def skip (delimiters buf : Bytes) : Bytes × Bytes :=
  (buf.takeWhile (!delimiters.contains ·),
    (buf.dropWhile (!delimiters.contains ·)).dropWhile (delimiters.contains ·))

/-- The loop of `parse_http_headers`, with so many of the `http_headers` left. -/
def parseHttpHeaders : Nat → Bytes → List (Bytes × Bytes)
  | 0, _ => []
  | left + 1, buf =>
      let name := (skip [58, 32] buf).1
      let buf := (skip [58, 32] buf).2
      let value := (skip [13, 10] buf).1
      let buf := (skip [13, 10] buf).2
      if name = [] then [] else (name, value) :: parseHttpHeaders left buf

/-- `tolower` of the C locale. -/
def lowercase (c : UInt8) : UInt8 := if 65 ≤ c ∧ c ≤ 90 then c + 32 else c

/-- `isxdigit`. -/
def isXDigit (c : UInt8) : Bool :=
  (48 ≤ c && c ≤ 57) || (65 ≤ c && c ≤ 70) || (97 ≤ c && c ≤ 102)

/-- `HEXTOI` of the lower case. -/
def hexToI (c : UInt8) : UInt8 :=
  let x := lowercase c
  if 48 ≤ x ∧ x ≤ 57 then x - 48 else x - 87

/-- `mg_url_decode` into a buffer that is long enough. -/
def mgUrlDecode (isFormUrlEncoded : Bool) : Bytes → Bytes
  | [] => []
  | 37 :: a :: b :: rest =>
      if isXDigit a && isXDigit b then
        (hexToI a <<< 4 ||| hexToI b) :: mgUrlDecode isFormUrlEncoded rest
      else 37 :: mgUrlDecode isFormUrlEncoded (a :: b :: rest)
  | c :: rest =>
      (if isFormUrlEncoded && c == 43 then 32 else c) :: mgUrlDecode isFormUrlEncoded rest

def isSlash (c : UInt8) : Bool := c == 47 || c == 92

/-- `remove_double_dots_and_double_slashes`; `true` where the inner loop is about to go on. -/
def removeDoubleDotsFrom : Bool → Bytes → Bytes
  | _, [] => []
  | true, 46 :: 46 :: s => removeDoubleDotsFrom true s
  | true, c :: s => if isSlash c then removeDoubleDotsFrom true s else c :: removeDoubleDotsFrom false s
  | false, c :: s => c :: removeDoubleDotsFrom (isSlash c) s

def removeDoubleDotsAndDoubleSlashes (s : Bytes) : Bytes := removeDoubleDotsFrom false s

/-- What is left in `mg_connection` of a head. -/
structure Message where
  requestMethod : Bytes
  uri : Bytes
  httpVersion : Bytes
  queryString : Option Bytes
  statusCode : Int32
  headers : List (Bytes × Bytes)
  deriving DecidableEq

/-- `is_valid_http_method`. -/
def isValidHttpMethod (s : Bytes) : Bool :=
  s ∈ [ascii "GET", ascii "POST", ascii "HEAD", ascii "CONNECT", ascii "PUT", ascii "DELETE",
    ascii "OPTIONS", ascii "PROPFIND", ascii "MKCOL"]

/-- The path of a target: decoded, as far as its first NUL, and made safe. -/
def uriOf (target : Bytes) : Bytes :=
  let uri := cString (mgUrlDecode false target)
  if uri.head? = some 47 ∨ uri.head? = some 46 then removeDoubleDotsAndDoubleSlashes uri else uri

/-- `parse_http_message`, on a head whose last byte is made a NUL; `none` where it returns -1. -/
def parseHttpMessage (buf : Bytes) : Option Message :=
  let buf := (cString buf.dropLast).dropWhile isSpace
  let requestMethod := (skip [32] buf).1
  let buf := (skip [32] buf).2
  let uri := (skip [32] buf).1
  let buf := (skip [32] buf).2
  let httpVersion := (skip [13, 10] buf).1
  let buf := (skip [13, 10] buf).2
  let isRequest := isValidHttpMethod requestMethod
  if (isRequest ∧ ¬ ascii "HTTP/" <+: httpVersion) ∨ (¬ isRequest ∧ ¬ ascii "HTTP/" <+: requestMethod)
  then none
  else some
    { requestMethod
      uri := uriOf (uri.takeWhile (· != 63))
      httpVersion := if isRequest then httpVersion.drop 5 else httpVersion
      queryString := if 63 ∈ uri then some ((uri.dropWhile (· != 63)).drop 1) else none
      statusCode := if isRequest then 0 else atoi uri
      headers := parseHttpHeaders 30 buf }

/-- `mg_get_header`. -/
def Message.mgGetHeader (m : Message) (s : Bytes) : Option Bytes :=
  (m.headers.find? fun h => s.map lowercase = h.1.map lowercase).map Prod.snd

/-- The `sscanf` of `is_valid_uri`: a host, a colon and the beginning of a number. -/
def isHostPort (uri : Bytes) : Bool :=
  let isHost (c : UInt8) : Bool := c != 32 && c != 58
  match uri.dropWhile isHost with
  | 58 :: rest =>
      let number := rest.dropWhile isSpace
      let digits := if number.head? = some 43 ∨ number.head? = some 45 then number.drop 1 else number
      !(uri.takeWhile isHost).isEmpty && digits.head?.any isDigit
  | _ => false

/-- `is_valid_uri`. -/
def isValidUri (uri : Bytes) : Bool :=
  uri.head? = some 47 || uri = [42] || (uri.take 4).map lowercase = ascii "http" || isHostPort uri

/-! ## 2. Heads -/

/-- A head goes as far as its first empty line. -/
def IsHead (head : Bytes) : Prop := getRequestLen head = head.length ∧ head ≠ []

theorem getRequestLenFrom_bounds (i : Nat) (buf : Bytes) :
    getRequestLenFrom i buf = 0 ∨ getRequestLenFrom i buf = -1 ∨
      ((i : Int) < getRequestLenFrom i buf ∧ getRequestLenFrom i buf ≤ i + buf.length) := by
  fun_induction getRequestLenFrom i buf with
  | case1 => exact .inl rfl
  | case2 => exact .inr (.inl rfl)
  | case3 i c rest _ h =>
      have hlength : 1 ≤ rest.length := by
        have := congrArg List.length h.2
        simp at this
        omega
      refine .inr (.inr ⟨by omega, ?_⟩)
      simp
      omega
  | case4 i c rest _ _ h =>
      have hlength : 2 ≤ rest.length := by
        have := congrArg List.length h.2
        simp at this
        omega
      refine .inr (.inr ⟨by omega, ?_⟩)
      simp
      omega
  | case5 i c rest _ _ _ ih =>
      simp only [List.length_cons]
      rcases ih with h | h | h
      · exact .inl h
      · exact .inr (.inl h)
      · refine .inr (.inr ⟨?_, ?_⟩) <;> omega

/-- What is found is found whatever follows. -/
theorem getRequestLenFrom_append {i : Nat} {buf : Bytes} (h : getRequestLenFrom i buf ≠ 0) (t : Bytes) :
    getRequestLenFrom i (buf ++ t) = getRequestLenFrom i buf := by
  fun_induction getRequestLenFrom i buf with
  | case1 => exact absurd rfl h
  | case2 i c rest hbad => rw [List.cons_append, getRequestLenFrom, if_pos hbad]
  | case3 i c rest hbad hline =>
      have happend : (rest ++ t).take 1 = [10] := by
        rw [List.take_append_of_le_length, hline.2]
        have := congrArg List.length hline.2
        simp at this
        omega
      rw [List.cons_append, getRequestLenFrom, if_neg hbad, if_pos ⟨hline.1, happend⟩]
  | case4 i c rest hbad hshort hline =>
      have hlength : 2 ≤ rest.length := by
        have := congrArg List.length hline.2
        simp at this
        omega
      have happend : (rest ++ t).take 2 = [13, 10] := by
        rw [List.take_append_of_le_length hlength, hline.2]
      have hone : (rest ++ t).take 1 = rest.take 1 := List.take_append_of_le_length (by omega)
      rw [List.cons_append, getRequestLenFrom, if_neg hbad, hone, if_neg hshort,
        if_pos ⟨hline.1, happend⟩]
  | case5 i c rest hbad hone htwo ih =>
      -- a line end at the end of the bytes decides nothing
      have hdecided : ¬ (c = 10 ∧ (rest ++ t).take 1 = [10]) ∧
          ¬ (c = 10 ∧ (rest ++ t).take 2 = [13, 10]) := by
        match rest with
        | [] => exact absurd rfl h
        | [d] =>
            have hd : d ≠ 13 := by
              rintro rfl
              exact h rfl
            simp_all
        | d :: e :: rest => simp_all
      rw [List.cons_append, getRequestLenFrom, if_neg hbad, if_neg hdecided.1, if_neg hdecided.2, ih h]

theorem getRequestLen_head {head : Bytes} (h : IsHead head) (t : Bytes) :
    getRequestLen (head ++ t) = head.length := by
  have hpos : getRequestLenFrom 0 head ≠ 0 := by
    have := List.length_pos_iff.mpr h.2
    have hlength := h.1
    rw [getRequestLen] at hlength
    omega
  rw [getRequestLen, getRequestLenFrom_append hpos]
  exact h.1

/-- Before its last byte a head is none yet. -/
theorem getRequestLen_prefix {p q : Bytes} (h : IsHead (p ++ q)) (hq : q ≠ []) :
    getRequestLen p = 0 := by
  by_contra hne
  have happend := getRequestLenFrom_append (i := 0) hne q
  have hhead := h.1
  have hqlength := List.length_pos_iff.mpr hq
  have hbounds := getRequestLenFrom_bounds 0 p
  rw [getRequestLen] at hhead hne
  rw [List.length_append] at hhead
  omega

/-! ## 3. Paths -/

/-- No slash has a slash or two dots behind it. -/
def Safe (s : Bytes) : Prop :=
  ∀ a c b, s = a ++ c :: b → isSlash c = true → b.head?.any isSlash = false ∧ b.take 2 ≠ [46, 46]

theorem safe_nil : Safe [] := by
  intro a c b h
  simp at h

theorem safe_cons {c : UInt8} {s : Bytes} :
    Safe (c :: s) ↔
      (isSlash c = true → s.head?.any isSlash = false ∧ s.take 2 ≠ [46, 46]) ∧ Safe s := by
  refine ⟨fun h => ⟨h [] c s rfl, fun a d b hs => h (c :: a) d b (by rw [hs]; rfl)⟩, fun h => ?_⟩
  intro a d b hs hd
  cases a with
  | nil =>
      cases hs
      exact h.1 hd
  | cons e a =>
      cases hs
      exact h.2 a d b rfl hd

/-- Whatever is kept is safe, behind a slash too. -/
theorem safe_removeDoubleDotsFrom (slash : Bool) (s : Bytes) :
    Safe (removeDoubleDotsFrom slash s) ∧
      (slash = true → (removeDoubleDotsFrom slash s).head?.any isSlash = false ∧
        (removeDoubleDotsFrom slash s).take 2 ≠ [46, 46]) := by
  fun_induction removeDoubleDotsFrom slash s with
  | case1 slash => exact ⟨safe_nil, fun _ => ⟨rfl, by simp⟩⟩
  | case2 s ih => exact ih
  | case3 c s _ hc ih => exact ih
  | case4 c s hdots hc ih =>
      have hslash : isSlash c = false := by simpa using hc
      refine ⟨safe_cons.mpr ⟨fun h => absurd h hc, ih.1⟩, fun _ => ⟨by simpa using hslash, ?_⟩⟩
      intro htake
      -- a dot that is kept is not the first of two
      cases s with
      | nil => simp [removeDoubleDotsFrom] at htake
      | cons d s =>
          simp only [removeDoubleDotsFrom, List.take_succ_cons, List.take_zero] at htake
          obtain ⟨rfl, hd⟩ : c = 46 ∧ d = 46 := by simpa using htake
          exact hdots s rfl (by rw [hd])
  | case5 c s ih => exact ⟨safe_cons.mpr ⟨ih.2, ih.1⟩, fun h => by cases h⟩

theorem removeDoubleDotsFrom_of_safe {s : Bytes} (slash : Bool) (h : Safe s)
    (hslash : slash = true → s.head?.any isSlash = false ∧ s.take 2 ≠ [46, 46]) :
    removeDoubleDotsFrom slash s = s := by
  fun_induction removeDoubleDotsFrom slash s with
  | case1 => rfl
  | case2 s => exact absurd rfl (hslash rfl).2
  | case3 c s _ hc => simp [hc] at hslash
  | case4 c s _ hc ih => rw [ih (safe_cons.mp h).2 (fun h => by cases h)]
  | case5 c s ih => rw [ih (safe_cons.mp h).2 (safe_cons.mp h).1]

theorem sublist_removeDoubleDotsFrom (slash : Bool) (s : Bytes) :
    (removeDoubleDotsFrom slash s).Sublist s := by
  fun_induction removeDoubleDotsFrom slash s with
  | case1 => exact List.Sublist.refl _
  | case2 s ih => exact (ih.cons _).cons _
  | case3 c s _ _ ih => exact ih.cons _
  | case4 c s _ _ ih => exact ih.cons_cons _
  | case5 c s ih => exact ih.cons_cons _

/-- Every escaping of bytes: a byte stands for itself, unless it is a percent sign, or as two digits. -/
inductive Escaped : Bytes → Bytes → Prop where
  | nil : Escaped [] []
  | plain {c : UInt8} {text bytes : Bytes} : c ≠ 37 → Escaped text bytes →
      Escaped (c :: text) (c :: bytes)
  | digits {a b : UInt8} {text bytes : Bytes} : isXDigit a = true → isXDigit b = true →
      Escaped text bytes → Escaped (37 :: a :: b :: text) ((hexToI a <<< 4 ||| hexToI b) :: bytes)

theorem mgUrlDecode_plain {c : UInt8} (hc : c ≠ 37) (text : Bytes) :
    mgUrlDecode false (c :: text) = c :: mgUrlDecode false text := by
  rw [mgUrlDecode]
  · simp
  · intro a b rest h
    exact absurd h hc

theorem mgUrlDecode_escaped {text bytes : Bytes} (h : Escaped text bytes) :
    mgUrlDecode false text = bytes := by
  induction h with
  | nil => rfl
  | plain hc _ ih => rw [mgUrlDecode_plain hc, ih]
  | digits ha hb _ ih => rw [mgUrlDecode, if_pos (by rw [ha, hb]; rfl), ih]

/-- The path the handler is given of a target whose path begins with a slash: it is safe, and what a
    safe path was escaped from, however it was escaped. -/
theorem uriOf_exact (target : Bytes) (hroot : (cString (mgUrlDecode false target)).head? = some 47) :
    Safe (uriOf target) ∧ (uriOf target).Sublist (cString (mgUrlDecode false target)) ∧
      (uriOf target = cString (mgUrlDecode false target) ↔ Safe (cString (mgUrlDecode false target))) := by
  have huri : uriOf target = removeDoubleDotsAndDoubleSlashes (cString (mgUrlDecode false target)) := by
    rw [uriOf, if_pos (.inl hroot)]
  rw [huri]
  refine ⟨(safe_removeDoubleDotsFrom _ _).1, sublist_removeDoubleDotsFrom _ _, ?_⟩
  refine ⟨fun h => ?_, fun h => removeDoubleDotsFrom_of_safe false h fun h => by cases h⟩
  rw [← h]
  exact (safe_removeDoubleDotsFrom _ _).1

/-- Two slashes and two dots, escaped and not. -/
theorem uriOf_exact_dots : Safe (uriOf (ascii "/a//%2e./b")) :=
  (uriOf_exact (ascii "/a//%2e./b") (by decide +kernel)).1

end Mongoose

end Domoio
