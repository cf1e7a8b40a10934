import Domoio.HttpMessages

/-
  File:      Domoio/HttpRequests.lean
  Subject:   The text of a request, and what is parsed of it (vendor/mongoose/mongoose.c).

  A `RequestText` has the words of a request, with the conditions under which they are words: its text is
  a head (`RequestText.isHead_text`), and `parse_http_message` gives the words back
  (`parseHttpMessage_text`). Any path that is safe can be asked for (`parseHttpMessage_path`).
-/

namespace Domoio

open Lib

namespace Mongoose

/-! ## 1. Texts -/

/-- The characters of words: neither control characters nor line ends. -/
def isText (c : UInt8) : Bool := isPrint c || 128 ≤ c

/-- A header line: a name, and a value that does not begin like what is skipped before it. -/
structure HeaderText where
  name : Bytes
  value : Bytes
  name_ne : name ≠ []
  name_chars : ∀ c ∈ name, isText c = true ∧ c ≠ 58 ∧ c ≠ 32
  value_chars : ∀ c ∈ value, isText c = true
  value_head : value.head? ≠ some 58 ∧ value.head? ≠ some 32

/-- A request: a method that is known, a target without blanks, and no more headers than are kept. -/
structure RequestText where
  method : Bytes
  target : Bytes
  version : Bytes
  headers : List HeaderText
  method_valid : isValidHttpMethod method = true
  target_ne : target ≠ []
  target_chars : ∀ c ∈ target, isText c = true ∧ c ≠ 32
  version_chars : ∀ c ∈ version, isText c = true
  headers_fit : headers.length ≤ 30

def crlf : Bytes := [13, 10]

namespace HeaderText

def line (h : HeaderText) : Bytes := h.name ++ ([58, 32] ++ h.value)

def entry (h : HeaderText) : Bytes × Bytes := (h.name, h.value)

end HeaderText

/-- Header lines, each on a line of its own, and an end. -/
def headerText (headers : List HeaderText) (rest : Bytes) : Bytes :=
  headers.foldr (fun h text => crlf ++ (h.line ++ text)) rest

namespace RequestText

def requestLine (r : RequestText) : Bytes :=
  r.method ++ ([32] ++ (r.target ++ ([32] ++ (ascii "HTTP/" ++ r.version))))

def text (r : RequestText) : Bytes := r.requestLine ++ headerText r.headers (crlf ++ crlf)

/-- What is kept of a request. -/
def message (r : RequestText) : Message where
  requestMethod := r.method
  uri := uriOf (r.target.takeWhile (· != 63))
  httpVersion := r.version
  queryString := if 63 ∈ r.target then some ((r.target.dropWhile (· != 63)).drop 1) else none
  statusCode := 0
  headers := r.headers.map HeaderText.entry

end RequestText

/-! ## 2. The text is a head -/

theorem isText_spec {c : UInt8} (h : isText c = true) :
    (!isPrint c && c != 13 && c != 10 && c < 128) = false ∧ c ≠ 10 ∧ c ≠ 13 ∧ c ≠ 0 ∧
      isSpace c = (c == 32) := by
  revert h
  obtain ⟨n, hn, rfl⟩ : ∃ n, n < 256 ∧ c = UInt8.ofNat n := ⟨c.toNat, c.toNat_lt, by simp⟩
  revert n
  decide +kernel

theorem getRequestLenFrom_text {l : Bytes} (h : ∀ c ∈ l, isText c = true) (i : Nat) (rest : Bytes) :
    getRequestLenFrom i (l ++ rest) = getRequestLenFrom (i + l.length) rest := by
  induction l generalizing i with
  | nil => rfl
  | cons c l ih =>
      have hc := isText_spec (h c List.mem_cons_self)
      rw [List.cons_append, getRequestLenFrom, if_neg (by simp [hc.1]), if_neg (by simp [hc.2.1]),
        if_neg (by simp [hc.2.1]), ih (fun d hd => h d (List.mem_cons_of_mem _ hd)), List.length_cons]
      congr 1
      omega

/-- A line end with a word behind it. -/
theorem getRequestLenFrom_crlf {c : UInt8} (h : isText c = true) (i : Nat) (rest : Bytes) :
    getRequestLenFrom i (crlf ++ c :: rest) = getRequestLenFrom (i + 2) (c :: rest) := by
  have hc := isText_spec h
  simp [crlf, getRequestLenFrom, hc.2.1, hc.2.2.1, isPrint]

theorem getRequestLenFrom_end (i : Nat) : getRequestLenFrom i (crlf ++ crlf) = i + 4 := by
  simp [crlf, getRequestLenFrom, isPrint]
  omega

theorem HeaderText.line_chars (h : HeaderText) : ∀ c ∈ h.line, isText c = true := by
  intro c hc
  rcases List.mem_append.mp hc with hname | hrest
  · exact (h.name_chars c hname).1
  · rcases List.mem_append.mp hrest with hcolon | hvalue
    · have hall : ∀ d ∈ ([58, 32] : Bytes), isText d = true := by decide +kernel
      exact hall c hcolon
    · exact h.value_chars c hvalue

theorem getRequestLenFrom_headers (headers : List HeaderText) (i : Nat) :
    getRequestLenFrom i (headerText headers (crlf ++ crlf)) =
      i + (headerText headers (crlf ++ crlf)).length := by
  induction headers generalizing i with
  | nil => exact getRequestLenFrom_end i
  | cons h headers ih =>
      obtain ⟨c, name, hname⟩ := List.exists_cons_of_ne_nil h.name_ne
      have hline : h.line ++ headerText headers (crlf ++ crlf) =
          c :: (name ++ ([58, 32] ++ h.value) ++ headerText headers (crlf ++ crlf)) := by
        rw [HeaderText.line, hname]
        simp
      have hc : isText c = true := (h.name_chars c (by simp [hname])).1
      show getRequestLenFrom i (crlf ++ (h.line ++ headerText headers (crlf ++ crlf))) = _
      rw [hline, getRequestLenFrom_crlf hc, ← hline, getRequestLenFrom_text h.line_chars, ih]
      simp [headerText, crlf]
      omega

theorem method_chars {method : Bytes} (h : isValidHttpMethod method = true) :
    ∀ c ∈ method, isText c = true ∧ c ≠ 32 := by
  have hall : ∀ m ∈ [ascii "GET", ascii "POST", ascii "HEAD", ascii "CONNECT", ascii "PUT",
      ascii "DELETE", ascii "OPTIONS", ascii "PROPFIND", ascii "MKCOL"],
      ∀ c ∈ m, isText c = true ∧ c ≠ 32 := by decide +kernel
  exact hall method (by simpa only [isValidHttpMethod, decide_eq_true_eq] using h)

theorem RequestText.requestLine_chars (r : RequestText) : ∀ c ∈ r.requestLine, isText c = true := by
  have hblank : ∀ c ∈ ([32] : Bytes), isText c = true := by decide +kernel
  have hhttp : ∀ c ∈ ascii "HTTP/", isText c = true := by decide +kernel
  intro c hc
  simp only [requestLine, List.mem_append] at hc
  rcases hc with h | h | h | h | h | h
  · exact (method_chars r.method_valid c h).1
  · exact hblank c h
  · exact (r.target_chars c h).1
  · exact hblank c h
  · exact hhttp c h
  · exact r.version_chars c h

theorem RequestText.isHead_text (r : RequestText) : IsHead r.text := by
  refine ⟨?_, by simp [text, requestLine]⟩
  rw [getRequestLen, text, getRequestLenFrom_text r.requestLine_chars, getRequestLenFrom_headers]
  simp

/-! ## 3. What is parsed of it -/

theorem skip_word {delimiters w d rest : Bytes} (hw : ∀ c ∈ w, c ∉ delimiters)
    (hd : ∀ c ∈ d, c ∈ delimiters) (hne : d ++ rest = [] ∨ d ≠ [])
    (hrest : ∀ c ∈ rest.head?, c ∉ delimiters) :
    skip delimiters (w ++ (d ++ rest)) = (w, rest) := by
  have hword : ∀ c ∈ w, (!delimiters.contains c) = true := fun c hc => by simpa using hw c hc
  have hdelimiter : ∀ c ∈ d, delimiters.contains c = true := fun c hc => by simpa using hd c hc
  have hstop : (d ++ rest).takeWhile (!delimiters.contains ·) = [] ∧
      (d ++ rest).dropWhile (!delimiters.contains ·) = d ++ rest := by
    rcases hne with hnil | hne
    · simp [hnil]
    · obtain ⟨e, d', rfl⟩ := List.exists_cons_of_ne_nil hne
      have he := hd e List.mem_cons_self
      simp [he]
  have hdrop : rest.dropWhile (delimiters.contains ·) = rest := by
    cases rest with
    | nil => rfl
    | cons e rest =>
        have he : e ∉ delimiters := hrest e rfl
        simp [he]
  rw [skip, List.takeWhile_append_of_pos hword, List.dropWhile_append_of_pos hword, hstop.1, hstop.2,
    List.append_nil, List.dropWhile_append_of_pos hdelimiter, hdrop]

/-- The header lines behind the line end before them. -/
def headerLines : List HeaderText → Bytes
  | [] => []
  | h :: headers => h.line ++ headerText headers (crlf ++ [13])

theorem headerText_eq (headers : List HeaderText) :
    ∃ d, headerText headers (crlf ++ [13]) = d ++ headerLines headers ∧ d ≠ [] ∧
      (∀ c ∈ d, c ∈ ([13, 10] : Bytes)) ∧ ∀ c ∈ (headerLines headers).head?, c ∉ ([13, 10] : Bytes) := by
  cases headers with
  | nil => exact ⟨[13, 10, 13], rfl, by simp, by simp, by simp [headerLines]⟩
  | cons h headers =>
      refine ⟨crlf, rfl, by simp [crlf], by simp [crlf], ?_⟩
      obtain ⟨c, name, hname⟩ := List.exists_cons_of_ne_nil h.name_ne
      have hc := isText_spec (h.name_chars c (by simp [hname])).1
      simp [headerLines, HeaderText.line, hname, hc.2.1, hc.2.2.1]

theorem parseHttpHeaders_lines (headers : List HeaderText) {left : Nat} (hleft : headers.length ≤ left) :
    parseHttpHeaders left (headerLines headers) = headers.map HeaderText.entry := by
  induction headers generalizing left with
  | nil =>
      cases left with
      | zero => rfl
      | succ left => simp [parseHttpHeaders, headerLines, skip]
  | cons h headers ih =>
      obtain ⟨left, rfl⟩ : ∃ l, left = l + 1 := ⟨left - 1, by simp at hleft; omega⟩
      obtain ⟨d, htext, hd, hdchars, hdrest⟩ := headerText_eq headers
      have hname : skip [58, 32] (headerLines (h :: headers)) =
          (h.name, h.value ++ headerText headers (crlf ++ [13])) := by
        have hlines : headerLines (h :: headers) =
            h.name ++ ([58, 32] ++ (h.value ++ headerText headers (crlf ++ [13]))) := by
          simp [headerLines, HeaderText.line]
        rw [hlines]
        refine skip_word (fun c hc => ?_) (fun c hc => hc) (.inr (by simp)) ?_
        · have := h.name_chars c hc
          simp [this.2.1, this.2.2]
        · intro c hc
          cases hv : h.value with
          | nil =>
              rw [hv, htext] at hc
              obtain ⟨e, d', rfl⟩ := List.exists_cons_of_ne_nil hd
              have he := hdchars e List.mem_cons_self
              cases hc
              revert he
              simp
              rintro (rfl | rfl) <;> decide
          | cons e value =>
              rw [hv] at hc
              cases hc
              have := h.value_head
              simpa [hv] using this
      have hvalue : skip [13, 10] (h.value ++ headerText headers (crlf ++ [13])) =
          (h.value, headerLines headers) := by
        rw [htext]
        refine skip_word (fun c hc => ?_) hdchars (.inr hd) hdrest
        have := isText_spec (h.value_chars c hc)
        simp [this.2.1, this.2.2.1]
      rw [parseHttpHeaders]
      simp only [hname, hvalue, if_neg h.name_ne]
      rw [ih (by simpa using hleft)]
      rfl

theorem headerText_append (headers : List HeaderText) (b rest : Bytes) :
    headerText headers (b ++ rest) = headerText headers b ++ rest := by
  induction headers with
  | nil => rfl
  | cons h headers ih => simp only [headerText, List.foldr_cons, List.append_assoc] at ih ⊢; rw [ih]

theorem nulFree_headerText (headers : List HeaderText) : NulFree (headerText headers (crlf ++ [13])) := by
  induction headers with
  | nil => simp [NulFree, headerText, crlf]
  | cons h headers ih =>
      intro c hc
      rcases List.mem_append.mp hc with hcrlf | hc
      · simp only [crlf, List.mem_cons, List.not_mem_nil, or_false] at hcrlf
        rcases hcrlf with rfl | rfl <;> decide
      · rcases List.mem_append.mp hc with hline | hrest
        · exact (isText_spec (h.line_chars c hline)).2.2.2.1
        · exact ih c hrest

theorem nulFree_text (r : RequestText) :
    NulFree (r.requestLine ++ headerText r.headers (crlf ++ [13])) := by
  intro c hc
  rcases List.mem_append.mp hc with hline | hheaders
  · exact (isText_spec (r.requestLine_chars c hline)).2.2.2.1
  · exact nulFree_headerText r.headers c hheaders

theorem method_ne {method : Bytes} (h : isValidHttpMethod method = true) : method ≠ [] := by
  rintro rfl
  revert h
  decide +kernel

/-- The words are read back. -/
theorem parseHttpMessage_text (r : RequestText) : parseHttpMessage r.text = some r.message := by
  have hdrop : r.text.dropLast = r.requestLine ++ headerText r.headers (crlf ++ [13]) := by
    have : r.text = (r.requestLine ++ headerText r.headers (crlf ++ [13])) ++ [10] := by
      rw [RequestText.text, List.append_assoc, ← headerText_append]
      rfl
    rw [this, List.dropLast_concat]
  obtain ⟨d, htext, hd, hdchars, hdrest⟩ := headerText_eq r.headers
  have hblank : ∀ c ∈ ([32] : Bytes), c ∈ ([32] : Bytes) := fun c hc => hc
  have hspaces : (r.requestLine ++ headerText r.headers (crlf ++ [13])).dropWhile isSpace =
      r.requestLine ++ headerText r.headers (crlf ++ [13]) := by
    obtain ⟨c, method, hmethod⟩ := List.exists_cons_of_ne_nil (method_ne r.method_valid)
    have hc := method_chars r.method_valid c (by simp [hmethod])
    have hspace : isSpace c = false := by
      rw [(isText_spec hc.1).2.2.2.2]
      simpa using hc.2
    simp [RequestText.requestLine, hmethod, hspace]
  obtain ⟨t, target, htarget⟩ := List.exists_cons_of_ne_nil r.target_ne
  have hmethod : skip [32] (r.requestLine ++ headerText r.headers (crlf ++ [13])) =
      (r.method, r.target ++ ([32] ++ (ascii "HTTP/" ++ r.version ++ (d ++ headerLines r.headers)))) := by
    have hline : r.requestLine ++ headerText r.headers (crlf ++ [13]) = r.method ++ ([32] ++
        (r.target ++ ([32] ++ (ascii "HTTP/" ++ r.version ++ (d ++ headerLines r.headers))))) := by
      simp [RequestText.requestLine, htext]
    rw [hline]
    refine skip_word (fun c hc => ?_) hblank (.inr (by simp)) fun c hc => ?_
    · simpa using (method_chars r.method_valid c hc).2
    · rw [htarget] at hc
      cases hc
      simpa using (r.target_chars t (by simp [htarget])).2
  have huri : skip [32] (r.target ++ ([32] ++ (ascii "HTTP/" ++ r.version ++
      (d ++ headerLines r.headers)))) =
      (r.target, ascii "HTTP/" ++ r.version ++ (d ++ headerLines r.headers)) := by
    refine skip_word (fun c hc => ?_) hblank (.inr (by simp)) fun c hc => ?_
    · simpa using (r.target_chars c hc).2
    · cases hc
      decide
  have hversion : skip [13, 10] (ascii "HTTP/" ++ r.version ++ (d ++ headerLines r.headers)) =
      (ascii "HTTP/" ++ r.version, headerLines r.headers) := by
    refine skip_word (fun c hc => ?_) hdchars (.inr hd) hdrest
    have hchar : isText c = true := by
      rcases List.mem_append.mp hc with h | h
      · have hhttp : ∀ e ∈ ascii "HTTP/", isText e = true := by decide +kernel
        exact hhttp c h
      · exact r.version_chars c h
    have := isText_spec hchar
    simp [this.2.1, this.2.2.1]
  rw [parseHttpMessage, hdrop, cString_of_nulFree (nulFree_text r), hspaces]
  simp only [hmethod, huri, hversion, r.method_valid]
  rw [if_neg (by simp), parseHttpHeaders_lines r.headers r.headers_fit]
  rfl

/-- A text is read back with whatever follows it, as soon as it is all there and not before. -/
theorem request_text_exact (r : RequestText) (body : Bytes) :
    getRequestLen (r.text ++ body) = r.text.length ∧
      (∀ p q, r.text = p ++ q → q ≠ [] → getRequestLen p = 0) ∧
      parseHttpMessage ((r.text ++ body).take (getRequestLen (r.text ++ body)).toNat) =
        some r.message := by
  have hlen := getRequestLen_head r.isHead_text body
  refine ⟨hlen, fun p q hsplit hq => ?_, ?_⟩
  · have hhead := r.isHead_text
    rw [hsplit] at hhead
    exact getRequestLen_prefix hhead hq
  · rw [hlen, Int.toNat_natCast, List.take_left, parseHttpMessage_text]

end Mongoose

end Domoio
