import Domoio.Delivery
import Domoio.PortIds

/-
  File:      Domoio/Resolution.lean
  Subject:   Which requests and sessions reach what their ids name.

  `ids_exact` puts together what the matched URLs are, what a request of one does besides its log,
  when the entities in the log are those the numerals name, and when a `create_session` opens the
  session of the device its argument names.
-/

namespace Domoio

open Lib

namespace Httpd

/-! ## 1. Requests -/

/-- A request of a matched URL. -/
theorem request_exact (statements : Statements) (c : Cajun) (s : Server) (callback : Callback)
    (slash : Bool) (deviceId id : Digits) (method : Method) (body : Bytes) :
    IdsExact statements c s callback deviceId.val id.val
        (tracedRequest statements c apiActions.httpd method
          (callback.url slash deviceId.val id.val) body s) ↔
      ResolvesIds statements c s method deviceId.val id.val body callback := by
  obtain ⟨request, hresolve, rfl, rfl, hid, hdevice⟩ := resolve_url callback slash deviceId id method body
  have hrun : tracedRequest statements c apiActions.httpd request.method
      (callback.url slash deviceId.val id.val) request.postDataRaw =
        answer (callback.traced statements c request) := by
    rw [tracedRequest, hresolve]
  rw [hrun]
  cases callback with
  | devices =>
      refine resource_exact device_keepsId rfl hid fun e he => ?_
      cases e with
      | row name i =>
          cases name with
          | devices => exact ⟨i, he, rfl⟩
          | users => exact he.elim
      | live | port => exact he.elim
  | users =>
      refine resource_exact user_keepsId rfl hid fun e he => ?_
      cases e with
      | row name i =>
          cases name with
          | devices => exact he.elim
          | users => exact ⟨i, he, rfl⟩
      | live | port => exact he.elim
  | ports => exact ports_exact (hdevice rfl) hid
  | setPort => exact setPort_exact (hdevice rfl) hid

end Httpd

/-! ## 2. Sessions -/

namespace World

/-- `create_session` with an argument opens the session of the device with this id: the event is
    published. -/
def Opens (env : Env) (w : World) (k : ConnId) (name arg : Bytes) (rest : List Bytes) (x : Int32) :
    Prop :=
  ∃ w', commands.createSession env w k (name :: arg :: rest) = .ok (.done w') ∧
    w'.events = w.events ++ [(some k,
      { type := .deviceConnected, channel := .privateChannel, deviceId := x })]

/-- The session that is opened is of the device that the database has under the id `atoi` reads. -/
theorem opens_iff (env : Env) (w : World) (k : ConnId) (name arg : Bytes) (rest : List Bytes)
    (x : Int32) : Opens env w k name arg rest x ↔
      x = atoi arg ∧ (env.loadFromDb (atoi arg)).isSome := by
  cases hload : env.loadFromDb (atoi arg) with
  | some d =>
      have hrun : commands.createSession env w k (name :: arg :: rest) =
          .ok (.done (opened env w k d)) := by
        simp only [commands.createSession, List.getElem?_cons_succ, List.getElem?_cons_zero,
          createSession_found hload]
        rfl
      have hevents : (opened env w k d).events = w.events ++ [(some k,
          { type := .deviceConnected, channel := .privateChannel, deviceId := d.id })] := rfl
      have hid : d.id = atoi arg := env.loadFromDb_id hload
      rw [Opens, hrun]
      constructor
      · rintro ⟨w', hw, hw'⟩
        cases hw
        rw [hevents] at hw'
        have hx : d.id = x := by simpa using hw'
        exact ⟨hx.symm.trans hid, rfl⟩
      · rintro ⟨rfl, -⟩
        exact ⟨_, rfl, by rw [hevents, hid]⟩
  | none =>
      refine iff_of_false ?_ fun h => by simpa using h.2
      rintro ⟨w', hw, hw'⟩
      simp only [commands.createSession, List.getElem?_cons_succ, List.getElem?_cons_zero,
        createSession_missing hload] at hw
      rcases close_cases (close_of_done hw) with rfl | ⟨y, rfl⟩
      · have hlength := congrArg List.length hw'
        simp [updConn, send] at hlength
      · simp [updConn, send, publish] at hw'

end World

/-- Which URLs are matched, when a request of one reads and changes exactly what its numerals name, and
    when a `create_session` opens the session of the device that its argument names. Without its log
    the request is the code's, and what is not in the log stays as it was. -/
theorem ids_exact (statements : Statements) (c : Cajun) (s : Httpd.Server) (callback : Httpd.Callback)
    (slash : Bool) (deviceId id : Httpd.Digits) (method : Httpd.Method) (body : Bytes) (env : Env)
    (w : World) (k : ConnId) (name arg : Bytes) (rest : List Bytes) :
    (∃ actions, Httpd.registerHttpdActions = some actions ∧
      (∀ url, (Httpd.findAction actions.httpd url).isSome ↔
        ∃ (callback : Httpd.Callback) (slash : Bool) (deviceId id : Httpd.Digits),
          url = callback.url slash deviceId.val id.val) ∧
      (∀ url, (Httpd.tracedRequest statements c actions.httpd method url body).erase =
          Httpd.handleRequest statements c actions.httpd method url body ∧
        Httpd.Keeps (Httpd.tracedRequest statements c actions.httpd method url body)) ∧
      (Httpd.IdsExact statements c s callback deviceId.val id.val
          (Httpd.tracedRequest statements c actions.httpd method
            (callback.url slash deviceId.val id.val) body s) ↔
        Httpd.ResolvesIds statements c s method deviceId.val id.val body callback)) ∧
    ((∀ x, World.Opens env w k name arg rest x → decimal x = arg) ↔
      ((env.loadFromDb (atoi arg)).isSome → ∃ n, arg = decimal n)) := by
  constructor
  · exact ⟨_, Httpd.registerHttpdActions_eq, Httpd.findAction_iff, fun url =>
      ⟨Httpd.erase_tracedRequest _ method url body, Httpd.keeps_tracedRequest _ method url body⟩,
      Httpd.request_exact statements c s callback slash deviceId id method body⟩
  constructor
  · intro h hfound
    exact ⟨_, (h (atoi arg) ((World.opens_iff env w k name arg rest _).mpr ⟨rfl, hfound⟩)).symm⟩
  · intro h x hx
    obtain ⟨rfl, hfound⟩ := (World.opens_iff env w k name arg rest x).mp hx
    obtain ⟨n, rfl⟩ := h hfound
    rw [atoi_decimal]

/-! ## 3. A number that wraps -/

/-- The numeral of `2 ^ 32 + 5`. -/
def wrappedDigits : Httpd.Digits := ⟨ascii (Nat.repr (2 ^ 32 + 5)), (digitsValue_repr _).2.1⟩

/-- A server with a user 5. -/
def fiveServer : Httpd.Server where
  devices := ⟨∅, 1⟩
  users := ⟨(∅ : Std.ExtTreeMap Int32 Row).insert 5 fun _ => [], 6⟩
  live _ := none

/-- A GET of this user is answered, with user 5. -/
theorem not_idsExact_wrapped :
    ¬ ∀ (statements : Statements) (c : Cajun) (s : Httpd.Server) (callback : Httpd.Callback)
      (slash : Bool) (deviceId id : Httpd.Digits) (method : Httpd.Method) (body : Bytes),
      Httpd.IdsExact statements c s callback deviceId.val id.val
        (Httpd.tracedRequest statements c Httpd.apiActions.httpd method
          (callback.url slash deviceId.val id.val) body s) := by
  intro h
  have hexact := h {} (Cajun.knowing []) fiveServer .users true wrappedDigits wrappedDigits .get []
  have hvalue : digitsValue 0 wrappedDigits.val = 2 ^ 32 + 5 := (digitsValue_repr _).1
  have hnone : wrappedDigits.val ≠ [] := (digitsValue_repr _).2.2
  rcases (Httpd.request_exact _ _ _ _ _ _ _ _ _).mp hexact with hempty | hrefused | ⟨hin, -⟩
  · exact hnone hempty
  · exact hrefused
  · have hlt := hin.2
    rw [hvalue] at hlt
    omega

end Domoio
