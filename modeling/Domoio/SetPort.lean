import Domoio.Handlers
import Domoio.Persistence
import Domoio.Reports

/-
  File:      Domoio/SetPort.lean
  Subject:   `actions::set_port` on a live device (src/httpd/actions/http_ports.cc, lines 10 to 40).

  The member `value` of the body is converted by the kind of the port, and no conversion fails: an
  element of another type becomes that type's default, a number that is no `int` becomes one.

  * `World.setPort` -- the whole action: what it answers, and what the device server is left with;
  * `setPort_step`, `setPort_program` -- it is the set path of the server's machine, and on the live
    devices the program of the handler;
  * `setPort_iff` -- it takes values of the port's kind and refuses others exactly when the value is
    of the port's kind: it refuses none.
-/

namespace Domoio

open Lib

/-! ## 1. Values of a port's kind -/

/-- The value an element names for a port: a boolean for a digital one, an integer in the range of
    `int` for an analog one. -/
def PortState.named (p : PortState) : Json → Option Int32
  | .boolean b => if p.digital then some (if b then 1 else 0) else none
  | .number q =>
      if p.digital then none
      else if doubleOfInt (intOfDouble q) = q then some (intOfDouble q) else none
  | _ => none

/-- The action sets the value that is named. -/
theorem httpValue_named {p : PortState} {doc : Object} {v : Int32}
    (h : p.named (Object.get doc "value") = some v) : DeviceState.httpValue p doc = v := by
  unfold DeviceState.httpValue
  unfold PortState.named at h
  cases he : Object.get doc "value" with
  | boolean b =>
      simp only [he] at h
      split at h
      · rename_i hdigital
        cases h
        rw [if_pos hdigital]
        rfl
      · cases h
  | number q =>
      simp only [he] at h
      split at h
      · cases h
      · rename_i hdigital
        rw [if_neg hdigital]
        split at h
        · cases h
          rfl
        · cases h
  | null | string | array | object =>
      simp only [he] at h
      cases h

/-! ## 2. The action -/

namespace World

/-- `actions::set_port`: what it answers (`none` where it returns false) or throws, and the world it
    leaves. -/
def setPort (c : Cajun) (w : World) (request : Httpd.Request) :
    Except Fault (Except JsonException (Option Bytes) × World) :=
  let deviceId := request.paramInt "device_id"
  let portId := request.paramInt "id"
  match w.find deviceId with
  | none => .ok (.ok none, w)
  | some a => do
      let (a, device) ← w.deref (some a)
      match device.port portId with
      | none => return (.ok none, w)
      | some port =>
          if request.postDataRaw = [] then return (.ok none, w)
          else
            match c.read request.postDataRaw with
            | .error e => return (.error e, w)
            | .ok doc => return (.ok (some (ascii "OK")), w.applyEffect a (device.httpSetPort port doc))

variable {c : Cajun} {w w' : World} {request : Httpd.Request} {x id : Int32} {a : Addr}
  {d : DeviceState} {p : PortState} {doc : Object}

/-- A request with a document, to a port that is there. -/
structure Reaches (c : Cajun) (w : World) (request : Httpd.Request) (a : Addr) (d : DeviceState)
    (p : PortState) (doc : Object) : Prop where
  find : w.find (request.paramInt "device_id") = some a
  heap : w.heap a = some d
  port : d.port (request.paramInt "id") = some p
  body : request.postDataRaw ≠ []
  read : c.read request.postDataRaw = .ok doc

theorem Reaches.setPort (h : Reaches c w request a d p doc) :
    w.setPort c request = .ok (.ok (some (ascii "OK")), w.applyEffect a (d.httpSetPort p doc)) := by
  simp only [World.setPort, h.find, deref, h.heap, bind, Except.bind, h.port, if_neg h.body, h.read]
  rfl

/-- Where it answers OK it is a step of the server. -/
theorem setPort_step (h : Reaches c w request a d p doc) :
    ∃ w', w.setPort c request = .ok (.ok (some (ascii "OK")), w') ∧
      w.step (.httpSetPort (request.paramInt "device_id") (request.paramInt "id") doc) = .ok w' := by
  refine ⟨_, h.setPort, ?_⟩
  have hset : w.setRegistered (request.paramInt "device_id") (request.paramInt "id")
      (fun d p => d.httpSetPort p doc) = .ok (w.applyEffect a (d.httpSetPort p doc)) :=
    setRegistered_port h.find h.heap h.port
  exact hset

/-- On the live devices it is the handler's program. -/
theorem setPort_program (hw : w.WF) (s : Httpd.Server) (hs : s.live = w.registry) :
    ∃ r w', w.setPort c request = .ok (r, w') ∧
      Httpd.programs.setPort c request s = (r, { s with live := w'.registry }) := by
  have hsame : { s with live := w.registry } = s := by rw [← hs]
  have hlive : s.live (request.paramInt "device_id") =
      (w.find (request.paramInt "device_id")).bind w.heap := by rw [hs]; rfl
  unfold Httpd.programs.setPort
  rw [Httpd.Program.bind_read]
  cases hfind : w.find (request.paramInt "device_id") with
  | none =>
      rw [hfind, Option.bind_none] at hlive
      refine ⟨.ok none, w, by simp only [setPort, hfind], ?_⟩
      rw [hsame, hlive]
      rfl
  | some a =>
      obtain ⟨d, hd, -⟩ := hw.find hfind
      rw [hfind, Option.bind_some, hd] at hlive
      cases hp : d.port (request.paramInt "id") with
      | none =>
          refine ⟨.ok none, w, ?_, ?_⟩
          · simp only [setPort, hfind, deref, hd, bind, Except.bind, hp]
            rfl
          · rw [hsame, hlive]
            simp only [hp]
            rfl
      | some p =>
          by_cases hbody : request.postDataRaw = []
          · refine ⟨.ok none, w, ?_, ?_⟩
            · simp only [setPort, hfind, deref, hd, bind, Except.bind, hp, if_pos hbody]
              rfl
            · rw [hsame, hlive]
              simp only [hp, if_pos hbody]
              rfl
          cases hread : c.read request.postDataRaw with
          | error e =>
              refine ⟨.error e, w, ?_, ?_⟩
              · simp only [setPort, hfind, deref, hd, bind, Except.bind, hp, if_neg hbody, hread]
                rfl
              · rw [hsame, hlive]
                simp only [hp, if_neg hbody]
                rfl
          | ok doc =>
              obtain ⟨w', hrun, hstep⟩ := setPort_step ⟨hfind, hd, hp, hbody, hread⟩
              refine ⟨_, w', hrun, ?_⟩
              have hx : w.registry (request.paramInt "device_id") = some d := by
                rw [registry, hfind, Option.bind_some, hd]
              rw [Httpd.registry_httpSetPort hw hx hp hstep, ← hs, hlive]
              simp only [hp, if_neg hbody]
              rfl

/-! ## 3. Values of another kind -/

/-- The request is refused: nothing of the device, the events or the messages changes. -/
def PortRefused (c : Cajun) (w : World) (request : Httpd.Request) (a : Addr) : Prop :=
  ∃ w', w.setPort c request = .ok (.ok none, w') ∧ w'.heap a = w.heap a ∧ w'.events = w.events ∧
    w'.conns = w.conns

/-- The port takes the value, and the request is answered OK. -/
def PortTakes (c : Cajun) (w : World) (request : Httpd.Request) (a : Addr) (v : Int32) : Prop :=
  ∃ w' d', w.setPort c request = .ok (.ok (some (ascii "OK")), w') ∧ w'.heap a = some d' ∧
    d'.valueOf (request.paramInt "id") = some v

/-- The port takes the value that is named, and a request that names none is refused. -/
def KindChecked (c : Cajun) (w : World) (request : Httpd.Request) (a : Addr) (p : PortState)
    (doc : Object) : Prop :=
  match p.named (Object.get doc "value") with
  | some v => PortTakes c w request a v
  | none => PortRefused c w request a

/-- A named value is taken. -/
theorem takes_named (hk : d.Keyed) (h : Reaches c w request a d p doc) {v : Int32}
    (hv : p.named (Object.get doc "value") = some v) : PortTakes c w request a v := by
  refine ⟨_, _, h.setPort, Function.update_self a _ _, ?_⟩
  rw [DeviceState.valueOf, DeviceState.httpSetPort_eq, DeviceState.port_setValue hk h.port, if_pos rfl,
    httpValue_named hv]
  rfl

/-- `set_port` is right about a request that reaches a port exactly when the request names a value
    of the port's kind. It does not refuse the others: they set the port to what the conversion
    makes of them. -/
theorem setPort_iff (hk : d.Keyed) (h : Reaches c w request a d p doc) :
    KindChecked c w request a p doc ↔ (p.named (Object.get doc "value")).isSome = true := by
  unfold KindChecked
  cases hv : p.named (Object.get doc "value") with
  | some v => exact iff_of_true (takes_named hk h hv) rfl
  | none =>
      refine iff_of_false ?_ (by simp)
      intro hrefused
      obtain ⟨w', hrun, -⟩ := hrefused
      rw [h.setPort] at hrun
      cases hrun

/-! ## 4. A text for an analog port -/

/-- A text is sent as the value of the meter's port. -/
def textDoc : Object := [("value", .string (ascii "on"))]

def textRequest : Httpd.Request where
  method := .post
  params name := if name = "device_id" then ascii "5" else ascii "3"
  postDataRaw := wholeText textDoc

theorem reaches_text : ∃ p, Reaches (Cajun.knowing [textDoc]) meteredWorld textRequest 0 metered p
    textDoc := by
  obtain ⟨p, hp⟩ : ∃ p, metered.port 3 = some p := Option.isSome_iff_exists.mp (by decide)
  have hread : (Cajun.knowing [textDoc]).read (wholeText textDoc) = .ok textDoc := by
    simp [Cajun.knowing]
  exact ⟨p, by decide, rfl, hp, by decide, hread⟩

theorem setPort_iff_text : ∃ p,
    KindChecked (Cajun.knowing [textDoc]) meteredWorld textRequest 0 p textDoc ↔
      (p.named (Object.get textDoc "value")).isSome = true := by
  obtain ⟨p, h⟩ := reaches_text
  exact ⟨p, setPort_iff (DeviceState.keyed_new _) h⟩

/-- It is taken for 0. -/
theorem not_kindChecked_text :
    ¬ ∀ (c : Cajun) (w : World) (request : Httpd.Request) (a : Addr) (d : DeviceState)
      (p : PortState) (doc : Object), d.Keyed → Reaches c w request a d p doc →
        KindChecked c w request a p doc := by
  intro h
  obtain ⟨p, hreaches⟩ := reaches_text
  have hk : metered.Keyed := DeviceState.keyed_new _
  have hchecked := h _ _ _ _ _ _ _ hk hreaches
  have hnone : p.named (Object.get textDoc "value") = none := rfl
  rw [setPort_iff hk hreaches, hnone] at hchecked
  cases hchecked

end World

end Domoio
