import Domoio.Simulation

/-
  File:      Domoio/SessionEvents.lean
  Subject:   The session events of a connection: `device_connected` and `device_disconnected`.

  The web UI and the JavaScript rules know of a session by its two events only. `World.Bracketed`
  is what they rely on; `bracketed_exact` says which runs have it, connection by connection: those
  in which a session that has started ends by the server's `close`, with its flag still set and its
  device pointer still its own, before another one starts.
-/

namespace Domoio

open Lib

namespace World

/-- The session events sent on behalf of connection `k`, in order: a start for each
    `device_connected`, a finish for each `device_disconnected`. -/
def sessionEvents (w : World) (k : ConnId) : List (Mark Int32) :=
  (w.events.filterMap mark).filterMap fun m => if m.1 = k then some m.2 else none

/-- The session events of a connection take turns, the first being a `device_connected`; once it
    has ended they are pairs, each for one device. -/
structure Bracketed (w : World) (k : ConnId) : Prop where
  alternates : Mark.Alternates (w.sessionEvents k)
  balanced : (w.conns k).isOpen = false → Mark.Balanced (w.sessionEvents k)

/-- A step that keeps the brackets of connection `k`. In a session of `k` no other session is
    started on it, a `create_session` that is refused names the session's own device, no exception
    ends it, and the peer does not end it. -/
def KeepsBrackets (k : ConnId) (w : World) (act : Action) : Prop :=
  match w.change act with
  | .none | .accepted | .skipped | .closed _ => True
  | .opened j _ _ | .dropped j | .gone j => j = k → (w.conns k).sessionStarted = false
  | .refused j x => j = k → (w.conns k).sessionStarted = true →
      ∀ a d, (w.conns k).device = some a → w.heap a = some d → d.id = x

variable {w : World} {k : ConnId}

theorem bracketed_iff : w.Bracketed k ↔ w.sessions.Bracketed k :=
  ⟨fun ⟨ha, hb⟩ => ⟨ha, hb⟩, fun ⟨ha, hb⟩ => ⟨ha, hb⟩⟩

theorem keepsBrackets_iff (h : w.WF) {act : Action} (hc : w.sessions.Admitted (w.change act)) :
    KeepsBrackets k w act ↔ w.sessions.KeepsBrackets k (w.change act) := by
  have hidle : ∀ j, (w.conns j).isOpen = true →
      ((w.conns j).sessionStarted = false ↔ w.sessions.session j = none) := by
    intro j ho
    constructor
    · exact Sessions.session_of_idle (s := w.sessions)
    · intro hn
      rcases h.sessions.idle_or_session (k := j) ho with ⟨hs, -⟩ | ⟨p, -, hp⟩
      · exact hs
      · rw [hn] at hp
        cases hp
  unfold KeepsBrackets Sessions.KeepsBrackets
  cases hch : w.change act with
  | none | accepted | skipped | closed => exact Iff.rfl
  | opened j x v =>
      rw [hch] at hc
      exact ⟨fun hk hj => (hidle k (hj ▸ hc)).mp (hk hj), fun hk hj => (hidle k (hj ▸ hc)).mpr (hk hj)⟩
  | dropped j =>
      rw [hch] at hc
      exact ⟨fun hk hj => (hidle k (hj ▸ hc.1)).mp (hk hj),
        fun hk hj => (hidle k (hj ▸ hc.1)).mpr (hk hj)⟩
  | gone j =>
      rw [hch] at hc
      exact ⟨fun hk hj => (hidle k (hj ▸ hc)).mp (hk hj), fun hk hj => (hidle k (hj ▸ hc)).mpr (hk hj)⟩
  | refused j x =>
      rw [hch] at hc
      constructor
      · intro hk hj p hp
        obtain ⟨-, hs, a, hd, hi⟩ := Sessions.session_eq_some.mp hp
        obtain ⟨d, hh, rfl⟩ := Option.map_eq_some_iff.mp hi
        exact hk hj hs a d hd hh
      · intro hk hj hs a d hd hh
        subst hj
        have hi : w.sessions.ident a = some (identOf d) := by simp [sessions, hh]
        exact hk rfl (identOf d) (Sessions.session_eq_some.mpr ⟨hc.1, hs, a, hd, hi⟩)

theorem marked_loadVirtualDevices (devices : List Device) (k : ConnId) :
    (loadVirtualDevices devices).sessions.Marked k := by
  obtain ⟨hconns, hevents, -⟩ := loadVirtualDevices_frame devices
  refine .of_balanced (Sessions.session_of_idle ?_) ?_
  · show ((loadVirtualDevices devices).conns k).sessionStarted = false
    rw [hconns k]
  · show Mark.Balanced ((loadVirtualDevices devices).sessionEvents k)
    rw [sessionEvents, hevents]
    exact .nil

/-- In a run the session events of a connection are bracketed throughout exactly when every step
    keeps the brackets. -/
theorem bracketed_exact {devices : List Device} {tr : List (World × Action)}
    (hrun : machine.Run (loadVirtualDevices devices) tr w) (k : ConnId) :
    Machine.States (fun w => w.Bracketed k) tr w ↔ Machine.Steps (KeepsBrackets k) tr := by
  refine hrun.exact (J := fun w => w.WF ∧ w.sessions.Marked k)
    ⟨wf_loadVirtualDevices devices, marked_loadVirtualDevices devices k⟩
    (fun _ h => bracketed_iff.mpr h.2.bracketed) ?_ ?_
  · rintro w act w' ⟨hwf, hm⟩ he hs hq
    have hst := step_change hwf he hs
    refine ⟨hst.wf, ?_⟩
    rw [hst.sessions]
    exact hm.apply hwf.sessions hst.admitted ((keepsBrackets_iff hwf hst.admitted).mp hq)
  · rintro w act w' ⟨hwf, hm⟩ he hs hq hb
    have hst := step_change hwf he hs
    rw [bracketed_iff, hst.sessions] at hb
    exact Sessions.not_bracketed_apply hwf.sessions hm hst.admitted
      (fun hk => hq ((keepsBrackets_iff hwf hst.admitted).mpr hk)) hb

/-- A device starts its session and then sends `login` without a password. -/
def bareLogin : List Action :=
  [.accept, .read 0 (ascii "create_session 5" ++ [0]) (answering [{ id := 5 }]),
    .read 0 (hexEncode (ascii "login") ++ [0]) (answering [{ id := 5 }])]

theorem bracketed_exact_bareLogin : ∃ tr w,
    machine.exec [] (loadVirtualDevices []) bareLogin = some (tr, w) ∧
      (Machine.States (fun w => w.Bracketed 0) tr w ↔ Machine.Steps (KeepsBrackets 0) tr) := by
  obtain ⟨⟨tr, w⟩, he⟩ : ∃ r, machine.exec [] (loadVirtualDevices []) bareLogin = some r :=
    Option.isSome_iff_exists.mp (by decide)
  exact ⟨tr, w, he, bracketed_exact (Machine.Run.start.exec he) 0⟩

/-- The connection is closed without a `device_disconnected`. -/
theorem not_bracketed_bareLogin :
    ¬ ∀ (devices : List Device) (tr : List (World × Action)) (w : World) (k : ConnId),
      machine.Run (loadVirtualDevices devices) tr w →
        Machine.States (fun w => w.Bracketed k) tr w := by
  intro h
  obtain ⟨⟨tr, w⟩, he⟩ : ∃ r, machine.exec [] (loadVirtualDevices []) bareLogin = some r :=
    Option.isSome_iff_exists.mp (by decide)
  have hfinal : (machine.exec [] (loadVirtualDevices []) bareLogin).all (fun r =>
      (r.2.conns 0).isOpen = false ∧ r.2.sessionEvents 0 = [.start 5]) = true := by decide
  rw [he] at hfinal
  obtain ⟨hclosed, hevents⟩ := of_decide_eq_true hfinal
  have hb := (h [] tr w 0 (Machine.Run.start.exec he)).2.balanced hclosed
  rw [hevents] at hb
  exact Mark.Balanced.not_start (l := []) hb

end World

end Domoio
