/-
  BidiWeb.ConnectWebTransport.PipeEnds

  The ends of a pipe by themselves: what a step at one of them leaves as it is
  at the other, and a writing end that puts an envelope by one `write`, as
  that of a browser does.
-/

import BidiWeb.ConnectWebTransport.Session

namespace BidiWeb
namespace ConnectWebTransport

open BidiWeb.Lib
open BidiWeb.BidiProtocol

/-- What happens at the reading end. -/
def PipeEvent.ofReader : PipeEvent → Bool
  | .readEnvelope | .take _ | .readFails | .breakRead _ => true
  | .writeEnvelope _ | .accept _ | .writeFails | .closeSend | .breakWrite _ => false

/-- `writer.write(encodeEnvelope(env.flag, env.payload))` on a writable that is
    neither closed nor errored. -/
def Pipe.write (p : Pipe) (env : Envelope) : Pipe :=
  { p with
    writing := some (.payload env (encode env))
    started := p.started ++ [env] }

-- ============================================================================
-- What a step leaves alone
-- ============================================================================

/-- Bytes are put behind those there are, and none once the pipe is closed. -/
structure Pipe.Grows (p p' : Pipe) : Prop where
  put : p.put <+: p'.put
  closed : p.fin = true → p'.fin = true ∧ p'.put = p.put

theorem Pipe.Grows.refl (p : Pipe) : p.Grows p := ⟨List.prefix_rfl, fun h => ⟨h, rfl⟩⟩

namespace Pipe

variable {maxReadSize : Int} {p p' : Pipe} {ev : PipeEvent}

theorem Inv.grows (hp : p.Inv maxReadSize) (hstep : p.step maxReadSize ev = some p') :
    p.Grows p' := by
  have hbusy : ∀ w, p.writing = some w → p.fin = false := by
    intro w hw
    obtain ⟨part, hwrites, -⟩ := hp.writes
    exact (hwrites.of_busy hw).1
  cases stepped hstep with
  | accepts n w w' hw =>
      exact ⟨List.prefix_append .., fun h => absurd (h.symm.trans (hbusy w hw)) (by decide)⟩
  | writes n w hw =>
      exact ⟨List.prefix_append .., fun h => absurd (h.symm.trans (hbusy w hw)) (by decide)⟩
  | closes => exact ⟨List.prefix_rfl, fun _ => ⟨rfl, rfl⟩⟩
  | refused | begins | writeFails | closeRefused | breaksWrite | reads | takes | returns
  | readFails | breaksRead => exact ⟨List.prefix_rfl, fun h => ⟨h, rfl⟩⟩

/-- What is no step of the writing end leaves what it has begun and closed. -/
theorem request_of_step (hstep : p.step maxReadSize ev = some p')
    (hwrite : ∀ env, ev ≠ .writeEnvelope env) (hclose : ev ≠ .closeSend) :
    p'.started = p.started ∧ p'.fin = p.fin := by
  cases stepped hstep with
  | refused env => exact absurd rfl (hwrite env)
  | begins env => exact absurd rfl (hwrite env)
  | closeRefused => exact absurd rfl hclose
  | closes => exact absurd rfl hclose
  | accepts | writes | writeFails | breaksWrite | reads | takes | returns | readFails
  | breaksRead => exact ⟨rfl, rfl⟩

/-- A `write` begins: the head of the envelope is a part of it. -/
theorem Inv.write (hp : p.Inv maxReadSize) {env : Envelope} (hw : p.writing = none)
    (hopen : p.fin = false) (hup : p.writeErr = none) (henv : Encodable env) :
    (p.write env).Inv maxReadSize := by
  obtain ⟨part, hwrites, hput⟩ := hp.writes
  obtain ⟨hstarted, hpart⟩ := hwrites.of_idle hw hup
  refine hp.of_writer (List.prefix_append _ _) List.prefix_rfl
    (fun hfin => absurd (hfin.symm.trans hopen) (by decide)) rfl rfl rfl rfl
    (List.append_nil _).symm (List.append_nil _).symm ?_ ?_
  · intro e he
    rcases List.mem_append.mp he with he | he
    · exact hp.encodable e he
    · rw [List.mem_singleton.mp he]
      exact henv
  · refine ⟨[], .busy (.payload env (encode env)) rfl hopen ?_ rfl ?_, ?_⟩
    · show p.started ++ [env] = p.wrote ++ [env]
      rw [hstarted]
    · exact selfDelimiting_encode.nonempty env henv
    · rw [hpart] at hput
      exact hput

end Pipe

namespace BidiStream

variable {s s' : BidiStream}

theorem of_upStep {ev : PipeEvent} (hstep : s.upStep ev = some s') :
    s.up.step defaultMaxReadFrameSize ev = some s'.up ∧ s'.down = s.down := by
  unfold BidiStream.upStep at hstep
  split at hstep
  · cases hstep
  · obtain ⟨up, hup, rfl⟩ := Option.map_eq_some_iff.mp hstep
    exact ⟨hup, rfl⟩

theorem of_downStep {ev : PipeEvent} (hstep : s.downStep ev = some s') :
    s.down.step defaultMaxReadFrameSize ev = some s'.down ∧ s'.up = s.up := by
  unfold BidiStream.downStep at hstep
  split at hstep
  · cases hstep
  · split at hstep
    · obtain ⟨down, hdown, rfl⟩ := Option.map_eq_some_iff.mp hstep
      exact ⟨hdown, rfl⟩
    · cases hstep
  all_goals
    obtain ⟨down, hdown, rfl⟩ := Option.map_eq_some_iff.mp hstep
    exact ⟨hdown, rfl⟩

/-- The deferred calls write nothing to the client. -/
theorem Inv.of_deferred (hs : s.Inv) {err : GoError} (hstep : s.deferred err = some s') :
    s.down.Grows s'.down ∧ s'.up.started = s.up.started ∧ s'.up.fin = s.up.fin := by
  unfold BidiStream.deferred at hstep
  cases hh : s.handler <;> rw [hh] at hstep
  case unaccepted => cases hstep
  case handling => cases hstep
  case done => cases hstep
  case returned =>
    obtain ⟨down, hdown, rfl⟩ := Option.map_eq_some_iff.mp hstep
    have hclose : s.down.step defaultMaxReadFrameSize .closeSend = some down := hdown
    exact ⟨hs.down.grows hclose, rfl, rfl⟩
  case closed =>
    obtain ⟨up, hup, rfl⟩ := Option.map_eq_some_iff.mp hstep
    have hcancel : s.up.step defaultMaxReadFrameSize (.breakRead err) = some up := hup
    exact ⟨.refl _, Pipe.request_of_step hcancel nofun nofun⟩

/-- The client begins a `write`. -/
theorem Inv.write (hs : s.Inv) {env : Envelope} (hw : s.up.writing = none)
    (hopen : s.up.fin = false) (hup : s.up.writeErr = none) (henv : Encodable env) :
    Inv { s with up := s.up.write env } where
  up := hs.up.write hw hopen hup henv
  down := hs.down
  idle := hs.idle
  unaccepted := hs.unaccepted
  closes := hs.closes
  closed := hs.closed
  done := hs.done

end BidiStream

end ConnectWebTransport
end BidiWeb
