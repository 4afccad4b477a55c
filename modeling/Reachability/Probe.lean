import Reachability.Circuit
import Reachability.Clock
import Reachability.Link
import Reachability.Net.Network
import Reachability.Schedule
import Reachability.Task

set_option autoImplicit false

/-! # Probes

A probe finds out whether the host of a link is available. Links without a host, hosts that the
guard refuses and hosts whose circuit is open are not asked at all. Other hosts are asked up to
three times, with growing pauses; an answer with a status from 200 to 399 makes the link
available. Everything ends at the deadline. Times are in milliseconds. -/

namespace Reachability.Probe

/-- The pauses after the attempts. There is one for each attempt; the last one is never made. -/
def pauses : List Span := [.ofMillis 100, .ofMillis 300, .ofMillis 900]

/-- Whether a status is a success. -/
def isSuccess (status : Nat) : Bool := 200 ≤ status && status < 400

/-- What probes have to do with. -/
structure Setting where
  /-- The network. -/
  network : Network
  /-- When circuits open. -/
  policy : CircuitPolicy

/-- What probes share. -/
structure Scene where
  /-- What has gone over the network. -/
  traffic : Traffic
  /-- The circuits. -/
  circuits : Circuits
  /-- The clock. -/
  clock : Clock

/-- Whom a probe asks. -/
structure Target where
  /-- The URL that is asked for. -/
  url : List Char
  /-- The host, as the circuits know it. -/
  host : String
  deriving DecidableEq

/-- How far a probe has come. What it waits for comes at a time, or never. The pauses left start
    with the one after the present attempt. -/
inductive Stage where
  | fresh (link : String)
  | lookingUp (target : Target) (answer : Guard.Answer) (finish : Option Nat)
  | requesting (target : Target) (left : List Span) (outcome : Except RequestError Nat)
      (finish : Option Nat)
  | pausing (target : Target) (left : List Span) (finish : Option Nat)
  | finished (status : LinkStatus)

/-- Whether a time has come. -/
def hasCome (time : Option Nat) (now : Nat) : Bool := time.any (· ≤ now)

/-- What a probe waits for that goes on at `finish` and gives up at `deadline`. -/
def waitUntil (now deadline : Nat) (finish : Option Nat) : Wait :=
  if hasCome finish now || deadline ≤ now then .nothing
  else .change (some (match finish with
    | some t => min t deadline
    | none => deadline))

/-- What a probe waits for. -/
def Stage.wait (now deadline : Nat) : Stage → Wait
  | .fresh _ => .nothing
  | .lookingUp _ _ finish => waitUntil now deadline finish
  | .requesting _ _ _ finish => waitUntil now deadline finish
  | .pausing _ _ finish => waitUntil now deadline finish
  | .finished _ => .nothing

/-- The answer of a probe that has come to its end. -/
def Stage.status? : Stage → Option LinkStatus
  | .finished status => some status
  | _ => none

/-- The end of a probe without success. -/
def Stage.failed : Stage := .finished .notAvailable

/-- Makes an attempt, if the deadline has not come and there are attempts left. -/
def attempt (s : Setting) (now deadline : Nat) (target : Target) (left : List Span)
    (scene : Scene) : Scene × Stage :=
  if deadline ≤ now ∨ left = [] then (scene, .failed)
  else
    let reply := s.network.reply target.host (scene.traffic.callsTo target.host)
    ({ scene with traffic := scene.traffic.addCall ⟨now, target.host, target.url⟩ },
      .requesting target left reply.value (reply.finish now))

/-- Asks the circuit of the target and then the target. -/
def gate (s : Setting) (now deadline : Nat) (target : Target) (scene : Scene) : Scene × Stage :=
  let (allowed, circuits) := scene.circuits.allow s.policy (scene.clock.reading now) target.host
  let scene := { scene with circuits }
  if allowed then attempt s now deadline target pauses scene else (scene, .failed)

/-- Records that the target answered well. -/
def succeed (target : Target) (scene : Scene) : Scene :=
  { scene with circuits := scene.circuits.success target.host }

/-- Records that the target failed. -/
def fail (now : Nat) (target : Target) (scene : Scene) : Scene :=
  { scene with circuits := scene.circuits.failure (scene.clock.reading now) target.host }

/-- Pauses after a failed attempt, if another one follows. -/
def pause (now deadline : Nat) (target : Target) (left : List Span) (scene : Scene) :
    Scene × Stage :=
  match left with
  | d :: rest =>
    if rest = [] ∨ deadline ≤ now then (scene, .failed)
    else
      let (clock, finish) := scene.clock.sleep d now
      ({ scene with clock }, .pausing target rest finish)
  | [] => (scene, .failed)

/-- Looks at the outcome of an attempt. -/
def conclude (now deadline : Nat) (target : Target) (left : List Span)
    (outcome : Except RequestError Nat) (scene : Scene) : Scene × Stage :=
  let scene := { scene with traffic := scene.traffic.answered }
  match outcome with
  | .ok status =>
    if isSuccess status then (succeed target scene, .finished .available)
    else pause now deadline target left (fail now target scene)
  | .error _ => pause now deadline target left (fail now target scene)

/-- Looks at a link. -/
def begin (s : Setting) (now deadline : Nat) (link : String) (scene : Scene) : Scene × Stage :=
  match Link.candidate? link with
  | none => (scene, .failed)
  | some url =>
    let host := url.namedHost?
    let target : Target := ⟨url.text, String.ofList ((host.map Url.Host.text).getD [])⟩
    match Guard.judge host with
    | .decided true => (scene, .failed)
    | .decided false => gate s now deadline target scene
    | .ask name =>
      let lookup := s.network.lookup name
      ({ scene with traffic := scene.traffic.addLookup name },
        .lookingUp target lookup.value (lookup.finish now))

/-- One step of a probe that need not wait. What is over at the deadline still counts. -/
def step (s : Setting) (now deadline : Nat) (scene : Scene) : Stage → Scene × Stage
  | .fresh link => begin s now deadline link scene
  | .lookingUp target answer finish =>
    if hasCome finish now && !Guard.blocks answer then gate s now deadline target scene
    else (scene, .failed)
  | .requesting target left outcome finish =>
    if hasCome finish now then conclude now deadline target left outcome scene
    else (fail now target scene, .failed)
  | .pausing target left finish =>
    if hasCome finish now then attempt s now deadline target left scene else (scene, .failed)
  | .finished status => (scene, .finished status)

end Reachability.Probe
