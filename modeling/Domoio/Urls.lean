import Domoio.Routing

/-
  File:      Domoio/Urls.lean
  Subject:   The URLs that the routes of the HTTP API match, and the digits written in them.

  The API's routes are definite: behind a parameter stands a slash of the text, or the URL ends, so
  there is one way to read a URL, whether the optional slash is written or not. `takes_url` and
  `prefers_urlWith` are the two directions for any definite template; `findAction_iff` and
  `resolve_url` say it of the API: the matched URLs are the `Callback.url`s, and the action gets the
  digits as they are written.
-/

namespace Domoio

open Lib

namespace Httpd

/-! ## 1. URLs of a template -/

/-- The text of a piece, the optional slash written or not. -/
def Segment.urlWith (slash : Bool) (digits : Bytes → Digits) : Segment → Bytes
  | text c => [c]
  | optSlash => if slash then [47] else []
  | param n | optParam n => (digits n).val

/-- A URL of the template. -/
def Template.urlWith (t : Template) (slash : Bool) (digits : Bytes → Digits) : Bytes :=
  t.segments.flatMap (Segment.urlWith slash digits)

/-- Behind a parameter the text goes on with a slash or ends; behind an optional slash there is at
    most an optional parameter. -/
def Segment.definite (rest : List Segment) : Segment → Bool
  | text _ => true
  | optSlash => rest.all fun s => match s with
      | optParam _ => rest.length == 1
      | _ => false
  | param _ => rest.head?.all fun s => match s with
      | text c => c == 47
      | _ => false
  | optParam _ => rest.isEmpty

def definite : List Segment → Bool
  | [] => true
  | s :: rest => s.definite rest && definite rest

variable {slash : Bool} {digits : Bytes → Digits} {l rest : List Segment} {n : Bytes}

/-- What follows an optional slash. -/
theorem definite_optSlash (h : Segment.optSlash.definite rest = true) :
    rest = [] ∨ ∃ n, rest = [.optParam n] := by
  cases rest with
  | nil => exact Or.inl rfl
  | cons s rest =>
      cases s with
      | optParam n =>
          cases rest with
          | nil => exact Or.inr ⟨n, rfl⟩
          | cons s' rest => simp [Segment.definite] at h
      | text c => simp [Segment.definite] at h
      | optSlash => simp [Segment.definite] at h
      | param n => simp [Segment.definite] at h

/-- Behind a parameter the URL does not go on with a digit. -/
theorem definite_param {s : Segment} (hs : s.name.isSome) (h : s.definite rest = true) :
    ∀ c ∈ (rest.flatMap (Segment.urlWith slash digits)).head?, isDigit c = false := by
  intro c hc
  cases s with
  | text | optSlash => cases hs
  | optParam n =>
      obtain rfl := List.isEmpty_iff.mp h
      cases hc
  | param n =>
      cases rest with
      | nil => cases hc
      | cons b rest =>
          cases b with
          | text x =>
              have hx : x = 47 := by simpa [Segment.definite] using h
              obtain rfl : x = c := by simpa [Segment.urlWith] using hc
              rw [hx]
              rfl
          | optSlash => simp [Segment.definite] at h
          | param n => simp [Segment.definite] at h
          | optParam n => simp [Segment.definite] at h

/-- The matcher's first choices are right, also where it passes over the slash. -/
theorem prefers_urlWith (hl : definite l = true) (i : Nat) (c : Regex.Captures UInt8) :
    Regex.Prefers ((pieces i l).foldr .seq .empty) (l.flatMap (Segment.urlWith slash digits)) c
      ([], captured digits i l c) := by
  induction l generalizing i c with
  | nil => exact Regex.prefers_empty
  | cons s rest ih =>
      obtain ⟨hs, hrest⟩ := Bool.and_eq_true_iff.mp hl
      rw [List.flatMap_cons]
      refine Regex.prefers_seq (m := (rest.flatMap (Segment.urlWith slash digits),
        s.name.elim c fun n => (i + 1, (digits n).val) :: c)) ?_ (ih hrest (i + s.groups) _)
      have hgroup : ∀ n, s.name = some n → Regex.Prefers
          (.group (i + 1) (Regex.joined [.many isDigit]))
          ((digits n).val ++ rest.flatMap (Segment.urlWith slash digits)) c
          (rest.flatMap (Segment.urlWith slash digits), (i + 1, (digits n).val) :: c) := by
        intro n hn
        exact Regex.prefers_group (Regex.prefers_seq (Regex.prefers_many (digits n).property
          (definite_param (by rw [hn]; rfl) hs)) Regex.prefers_empty)
      cases s with
      | text x => exact Regex.prefers_one (beq_self_eq_true x)
      | param n => exact hgroup n rfl
      | optParam n => exact Regex.prefers_opt (hgroup n rfl)
      | optSlash =>
          cases slash with
          | true => exact Regex.prefers_opt (Regex.prefers_one (beq_self_eq_true 47))
          | false =>
              refine Regex.prefers_opt_none ?_
              -- a digit or nothing stands where the slash could
              rcases definite_optSlash hs with rfl | ⟨n, rfl⟩
              · rfl
              · rw [List.flatMap_singleton]
                show (Regex.one (· == 47)).results (digits n).val c = []
                cases hd : (digits n).val with
                | nil => rfl
                | cons x xs =>
                    have hx := (digits n).property x (by rw [hd]; exact List.mem_cons_self)
                    have hne : (x == 47) = false := by
                      rw [beq_eq_false_iff_ne]
                      rintro rfl
                      cases hx
                    simp [Regex.results, hne]

/-- The slash does not matter to pieces without it. -/
theorem urlWith_slash (h : ∀ s ∈ l, s ≠ Segment.optSlash) (slash' : Bool) :
    l.flatMap (Segment.urlWith slash digits) = l.flatMap (Segment.urlWith slash' digits) := by
  refine List.flatMap_congr fun s hs => ?_
  cases s with
  | optSlash => exact absurd rfl (h _ hs)
  | text | param | optParam => rfl

/-- Nor the digits under another name. -/
theorem urlWith_update (hn : n ∉ l.filterMap Segment.name) (d : Digits) :
    l.flatMap (Segment.urlWith slash (Function.update digits n d)) =
      l.flatMap (Segment.urlWith slash digits) := by
  refine List.flatMap_congr fun s hs => ?_
  have hother : ∀ m, s.name = some m → Function.update digits n d m = digits m := by
    intro m hm
    refine Function.update_of_ne ?_ _ _
    rintro rfl
    exact hn (List.mem_filterMap.mpr ⟨s, hs, hm⟩)
  cases s with
  | text | optSlash => rfl
  | param m => exact congrArg Subtype.val (hother m rfl)
  | optParam m => exact congrArg Subtype.val (hother m rfl)

/-- What the group of a parameter takes. -/
theorem takes_digits {i : Nat} {u : Bytes}
    (h : Regex.Takes (.group i (Regex.joined [.many isDigit])) u) :
    ∀ c ∈ u, isDigit c = true := by
  cases h with
  | group _ h =>
      cases h with
      | seq h h' =>
          cases h with
          | many h =>
              cases h'
              rw [List.append_nil]
              exact h

/-- A text of a parameter's piece before a URL of the rest. -/
theorem urlWith_param {s : Segment} {u : Bytes} (hs : ∀ slash digits,
      s.urlWith slash digits = (digits n).val) (hnodup : n ∉ rest.filterMap Segment.name)
    (hu : ∀ c ∈ u, isDigit c = true) :
    ∃ digits', u ++ rest.flatMap (Segment.urlWith slash digits) =
      (s :: rest).flatMap (Segment.urlWith slash digits') := by
  refine ⟨Function.update digits n ⟨u, hu⟩, ?_⟩
  rw [List.flatMap_cons, hs, urlWith_update hnodup, Function.update_self]

/-- A text of the pieces is one of their URLs. -/
theorem takes_url (hl : definite l = true) (hnames : (l.filterMap Segment.name).Nodup) {i : Nat}
    {u : Bytes} (h : Regex.Takes ((pieces i l).foldr .seq .empty) u) :
    ∃ slash digits, u = l.flatMap (Segment.urlWith slash digits) := by
  induction l generalizing i u with
  | nil =>
      cases h
      exact ⟨true, fun _ => ⟨[], by simp⟩, rfl⟩
  | cons s rest ih =>
      obtain ⟨hs, hrest⟩ := Bool.and_eq_true_iff.mp hl
      cases h with
      | @seq _ _ u u' h h' =>
          cases s with
          | text x =>
              obtain ⟨slash, digits, rfl⟩ := ih hrest hnames h'
              cases h with
              | one hx =>
                  obtain rfl := eq_of_beq hx
                  exact ⟨slash, digits, rfl⟩
          | optSlash =>
              obtain ⟨slash, digits, rfl⟩ := ih hrest hnames h'
              have hplain : ∀ s ∈ rest, s ≠ Segment.optSlash := by
                rcases definite_optSlash hs with rfl | ⟨n, rfl⟩ <;> simp
              rw [urlWith_slash hplain u.isEmpty.not]
              refine ⟨u.isEmpty.not, digits, ?_⟩
              cases h with
              | skip => rfl
              | opt h =>
                  cases h with
                  | one hx =>
                      obtain rfl := eq_of_beq hx
                      rfl
          | param n =>
              obtain ⟨hn, hnames⟩ := List.nodup_cons.mp hnames
              obtain ⟨slash, digits, rfl⟩ := ih hrest hnames h'
              exact ⟨slash, urlWith_param (fun _ _ => rfl) hn (takes_digits h)⟩
          | optParam n =>
              obtain ⟨hn, hnames⟩ := List.nodup_cons.mp hnames
              obtain ⟨slash, digits, rfl⟩ := ih hrest hnames h'
              have hu : ∀ c ∈ u, isDigit c = true := by
                cases h with
                | skip => simp
                | opt h => exact takes_digits h
              exact ⟨slash, urlWith_param (fun _ _ => rfl) hn hu⟩

/-! ## 2. URLs of the API -/

/-- The route of an action. -/
def Callback.template : Callback → Template
  | .devices => devicesTemplate
  | .ports => portsTemplate
  | .setPort => setPortTemplate
  | .users => usersTemplate

/-- The slash that can be left out. -/
def optionalSlash (slash : Bool) : Bytes := if slash then ascii "/" else []

/-- A URL for an action; without a device's id where the route has none. -/
def Callback.url (slash : Bool) (deviceId id : Bytes) : Callback → Bytes
  | .devices => ascii "/api/devices" ++ optionalSlash slash ++ id
  | .ports => ascii "/api/devices/" ++ deviceId ++ ascii "/ports" ++ optionalSlash slash ++ id
  | .setPort => ascii "/api/devices/" ++ deviceId ++ ascii "/ports/" ++ id ++ ascii "/set"
  | .users => ascii "/api/users" ++ optionalSlash slash ++ id

/-- The route has a device's id beside the other one. -/
def Callback.hasDevice : Callback → Bool
  | .devices | .users => false
  | .ports | .setPort => true

theorem definite_template (callback : Callback) : definite callback.template.segments = true := by
  cases callback <;> decide

theorem urlWith_texts (text : String) :
    (texts text).flatMap (Segment.urlWith slash digits) = ascii text := by
  rw [texts, List.flatMap_map]
  exact List.flatMap_singleton' (ascii text)

/-- The URLs of the templates are these. -/
theorem urlWith_template (callback : Callback) (slash : Bool) (digits : Bytes → Digits) :
    callback.template.urlWith slash digits =
      callback.url slash (digits (ascii "device_id")).val (digits (ascii "id")).val := by
  cases callback with
  | devices | users | ports =>
      simp [Callback.template, devicesTemplate, usersTemplate, portsTemplate, Template.urlWith,
        Callback.url, urlWith_texts, Segment.urlWith, optionalSlash]
      rfl
  | setPort =>
      simp [Callback.template, setPortTemplate, Template.urlWith, Callback.url, urlWith_texts,
        Segment.urlWith]

theorem mem_apiActions {action : HttpdAction Callback} :
    action ∈ apiActions.httpd ↔ ∃ callback : Callback, action = callback.template.action callback := by
  constructor
  · intro h
    obtain rfl | rfl | rfl | rfl : action = devicesTemplate.action .devices ∨
        action = portsTemplate.action .ports ∨ action = setPortTemplate.action .setPort ∨
          action = usersTemplate.action .users := by simpa [apiActions] using h
    · exact ⟨.devices, rfl⟩
    · exact ⟨.ports, rfl⟩
    · exact ⟨.setPort, rfl⟩
    · exact ⟨.users, rfl⟩
  · intro h
    obtain ⟨callback, rfl⟩ := h
    cases callback <;> simp [apiActions, Callback.template]

/-- Digits for the two parameters of a URL. -/
def paramDigits (deviceId id : Digits) (name : Bytes) : Digits :=
  if name = ascii "device_id" then deviceId else id

theorem url_paramDigits (callback : Callback) (slash : Bool) (deviceId id : Digits) :
    callback.template.urlWith slash (paramDigits deviceId id) = callback.url slash deviceId.val id.val :=
  urlWith_template callback slash _

theorem isMatch_callback (callback : Callback) (slash : Bool) (deviceId id : Digits) :
    callback.template.regexp.isMatch (callback.url slash deviceId.val id.val) = true := by
  rw [← url_paramDigits]
  exact Regex.isMatch_of_prefers (prefers_urlWith (definite_template callback) 0 [])

theorem matches_of_findAction {κ : Type} {actions : List (HttpdAction κ)} {url : Bytes}
    {action : HttpdAction κ} (h : findAction actions url = some action) :
    action ∈ actions ∧ action.regexp.isMatch url = true := by
  have hmatch := List.find?_some (p := fun action : HttpdAction κ => action.regexp.isMatch url) h
  exact ⟨List.mem_of_find?_eq_some h, hmatch⟩

/-- The URLs for which an action is found. -/
theorem findAction_iff (url : Bytes) : (findAction apiActions.httpd url).isSome ↔
    ∃ (callback : Callback) (slash : Bool) (deviceId id : Digits),
      url = callback.url slash deviceId.val id.val := by
  constructor
  · intro h
    obtain ⟨action, haction⟩ := Option.isSome_iff_exists.mp h
    obtain ⟨hmem, hmatch⟩ := matches_of_findAction haction
    obtain ⟨callback, rfl⟩ := mem_apiActions.mp hmem
    obtain ⟨slash, digits, hurl⟩ := takes_url (definite_template callback)
      callback.template.distinct (Regex.takes_of_isMatch hmatch)
    exact ⟨callback, slash, _, _, hurl.trans (urlWith_template callback slash digits)⟩
  · intro h
    obtain ⟨callback, slash, deviceId, id, rfl⟩ := h
    rw [findAction, List.find?_isSome]
    exact ⟨_, mem_apiActions.mpr ⟨callback, rfl⟩, isMatch_callback callback slash deviceId id⟩

/-- The action found is the one of the URL. -/
theorem findAction_url (callback : Callback) (slash : Bool) (deviceId id : Digits) :
    findAction apiActions.httpd (callback.url slash deviceId.val id.val) =
      some (callback.template.action callback) := by
  obtain ⟨action, haction⟩ := Option.isSome_iff_exists.mp
    ((findAction_iff _).mpr ⟨callback, slash, deviceId, id, rfl⟩)
  obtain ⟨hmem, hmatch⟩ := matches_of_findAction haction
  obtain ⟨found, rfl⟩ := mem_apiActions.mp hmem
  -- the letters of the URL tell the routes apart
  have hletters : found.template.letters = callback.template.letters :=
    (letters_of_isMatch hmatch).symm.trans
      (letters_of_isMatch (isMatch_callback callback slash deviceId id))
  have hsame : found = callback := by
    have hinj : ∀ a b : Callback, a.template.letters = b.template.letters → a = b := by
      intro a b
      cases a <;> cases b <;> decide
    exact hinj found callback hletters
  rw [haction, hsame]

/-- The request an action is called with has the digits of the URL. -/
theorem resolve_url (callback : Callback) (slash : Bool) (deviceId id : Digits) (method : Method)
    (postDataRaw : Bytes) : ∃ request,
    resolve apiActions.httpd method (callback.url slash deviceId.val id.val) postDataRaw =
        some (callback, request) ∧
      request.method = method ∧ request.postDataRaw = postDataRaw ∧ request.params "id" = id.val ∧
        (callback.hasDevice = true → request.params "device_id" = deviceId.val) := by
  have hsearch : callback.template.regexp.search (callback.url slash deviceId.val id.val) =
      some (captured (paramDigits deviceId id) 0 callback.template.segments []) := by
    rw [← url_paramDigits]
    exact Regex.search_of_prefers (prefers_urlWith (definite_template callback) 0 [])
  have hid : ascii "id" ∈ callback.template.paramNames := by cases callback <;> decide
  have hdevice : callback.hasDevice = true →
      ascii "device_id" ∈ callback.template.paramNames := by cases callback <;> decide
  refine ⟨_, by rw [resolve, findAction_url]; rfl, rfl, rfl, ?_, fun h => ?_⟩
  · exact params_captured callback hsearch hid
  · exact params_captured callback hsearch (hdevice h)

end Httpd

end Domoio
