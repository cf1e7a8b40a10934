import Domoio.Lib.Regex
import Domoio.Httpd

/-
  File:      Domoio/Routes.lean
  Subject:   Routes of the HTTP API: from a route's text to its expression, from a URL to an action
             and its parameters (src/httpd/httpd_action.cc, http_server.cc, request.cc).
-/

namespace Domoio

open Lib

namespace Httpd

/-! ## 1. Actions -/

/-- The characters of `[\w_-]`. -/
def isNameChar (c : UInt8) : Bool := Regex.isWord c || c == 45

/-- `PARAM_NAME_REGEXP`: `:([\w_-]*)`. -/
def paramNameRegexp : Regex UInt8 := .seq (.one (· == 58)) (.group 1 (.many isNameChar))

/-- `PARAM_VALUE_REGEXP`, as the format makes it: its doubled backslash stands for one. -/
def paramValueRegexp : Bytes := ascii "(\\d*)"

/-- `HttpdAction`, its expression with the number of groups, and the names of the parameters in
    their order. -/
structure HttpdAction (κ : Type) where
  route : Bytes
  callback : κ
  regexp : Regex UInt8
  markCount : Nat
  paramsIndex : List Bytes

/-- `HttpdAction::HttpdAction` with `route_to_expression`; `none` where the expression is rejected. -/
def HttpdAction.new {κ : Type} (route : Bytes) (callback : κ) : Option (HttpdAction κ) := do
  let paramsIndex := (paramNameRegexp.matchesIn route).map fun what => Regex.caught what 1
  let (regexp, markCount) ← Regex.parse (paramNameRegexp.replace paramValueRegexp route)
  return { route, callback, regexp, markCount, paramsIndex }

/-- `find_action` and `find_ws_action`. -/
def findAction {κ : Type} (actions : List (HttpdAction κ)) (url : Bytes) : Option (HttpdAction κ) :=
  actions.find? fun action => action.regexp.isMatch url

/-- `Request::params` after the loop of `Request::resolve`; a name that is not there is empty. -/
def HttpdAction.params {κ : Type} (action : HttpdAction κ) (url : Bytes) : Bytes → Bytes :=
  match action.regexp.search url with
  | none => fun _ => []
  | some groups =>
      (List.range action.markCount).foldl
        (fun params i =>
          Function.update params (action.paramsIndex.getD i []) (Regex.caught groups (i + 1)))
        fun _ => []

/-- `Request::resolve` as far as the callback, with what it is called on; `none` where no action is
    found. -/
def resolve {κ : Type} (actions : List (HttpdAction κ)) (method : Method) (url postDataRaw : Bytes) :
    Option (κ × Request) := do
  let action ← findAction actions url
  return (action.callback,
    { method, params := fun name => action.params url (ascii name), postDataRaw })

/-! ## 2. The API -/

/-- The HTTP actions. -/
inductive Callback where
  | devices
  | ports
  | setPort
  | users
  deriving DecidableEq

/-- The WebSocket actions. -/
inductive WebSocketCallback where
  | events
  deriving DecidableEq

/-- The actions of a server. -/
structure Actions where
  httpd : List (HttpdAction Callback)
  websocket : List (HttpdAction WebSocketCallback)

/-- `register_httpd_actions`. -/
def registerHttpdActions : Option Actions := do
  let events ← HttpdAction.new (ascii "/api/events") .events
  let devices ← HttpdAction.new (ascii "/api/devices/?:id?") .devices
  let ports ← HttpdAction.new (ascii "/api/devices/:device_id/ports/?:id?") .ports
  let setPort ← HttpdAction.new (ascii "/api/devices/:device_id/ports/:id/set") .setPort
  let users ← HttpdAction.new (ascii "/api/users/?:id?") .users
  return { httpd := [devices, ports, setPort, users], websocket := [events] }

end Httpd

end Domoio
