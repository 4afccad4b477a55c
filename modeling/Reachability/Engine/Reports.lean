import Reachability.Engine.World

set_option autoImplicit false

/-! # Reports among tasks

Reports are ordered by callers and written by workers. Between them is a queue with as many places
as there are workers; callers wait for a place in order. A caller waits until its deadline and no
longer. -/

namespace Reachability.Engine

/-! ## Workers -/

/-- How far a worker has come. -/
inductive ReportWorker where
  | idle
  | inLine
  | listening
  | loading (job : ReportJob) (visit : StoreService.Visit)
  | crashed

namespace ReportWorker

/-- What a worker waits for. Only the one with the lock takes a job. -/
def wait (now : Nat) (key : TaskKey) (w : World) : ReportWorker → Wait
  | inLine => if w.reports.receiver.holds key then .nothing else .change none
  | listening => if w.reports.jobs.isEmpty then .change none else .nothing
  | loading _ visit => visit.wait now key w.service
  | _ => .nothing

/-- Answers a job. -/
def reply (w : World) (job : ReportJob) (answer : Except Report.Error String) :
    World × ReportWorker :=
  ({ w with reports := w.reports.reply job.caller answer }, .idle)

/-- Takes the first job and looks whether it is still wanted. -/
def take (now : Nat) (key : TaskKey) (w : World) : World × ReportWorker :=
  match w.reports.jobs with
  | [] => (w, .listening)
  | job :: rest =>
    let w := { w with reports :=
      { w.reports with
        jobs := rest
        places := w.reports.places.release job.caller
        receiver := w.reports.receiver.release key } }
    if job.deadline ≤ now then reply w job (.error .cancelled)
    else (w, .loading job (.arriving (.read job.ids)))

/-- Writes the report on tasks that have been loaded, if it is still wanted. -/
def render (s : Settings) (now : Nat) (w : World) (job : ReportJob) (tasks : List Task) :
    World × ReportWorker :=
  if job.deadline ≤ now then reply w job (.error .cancelled)
  else
    match s.render tasks with
    | .text t => reply w job (.ok t)
    | .failed reason => reply w job (.error (.render reason))
    | .crash => ({ w with reports := w.reports.crash job.caller }, .crashed)

/-- One step of a worker that need not wait. -/
def step (s : Settings) (now : Nat) (key : TaskKey) (w : World) :
    ReportWorker → World × ReportWorker
  | idle =>
    ({ w with reports := { w.reports with receiver := w.reports.receiver.request key } }, .inLine)
  | inLine => (w, .listening)
  | listening => take now key w
  | loading job visit =>
    match visit with
    | .answered (.error e) => reply w job (.error (.store e))
    | .answered (.ok (.tasks tasks)) => render s now w job tasks
    | .answered (.ok _) => render s now w job []
    | _ =>
      let (service, visit) := w.service.step s.front (s.moment now) now key visit
      ({ w with service }, .loading job visit)
  | crashed => (w, .crashed)

end ReportWorker

/-! ## Callers -/

/-- How far a caller has come. It starts at a time and then waits for so long; a limit below 0 stands
    for a deadline that is over already. -/
inductive ReportCall where
  | fresh (ids : List TaskId) (start : Nat) (limit : Int)
  | inLine (ids : List TaskId) (deadline : Nat)
  | listening (deadline : Nat)
  | finished (answer : Except Report.Error String) (time : Nat)

namespace ReportCall

/-- The deadline of a caller that starts now. -/
def deadline (now : Nat) (limit : Int) : Nat := (now + limit).toNat

/-- What a caller waits for. -/
def wait (now : Nat) (key : TaskKey) (w : World) : ReportCall → Wait
  | fresh _ start _ => if start ≤ now then .nothing else .change (some start)
  | inLine _ deadline =>
    if w.reports.places.holds key || w.reports.isClosed || deadline ≤ now then .nothing
    else .change (some deadline)
  | listening deadline =>
    if w.reports.replies.contains key || deadline ≤ now then .nothing else .change (some deadline)
  | finished .. => .nothing

/-- One step of a caller that need not wait. A place, or an answer, that has come at the deadline
    still counts. -/
def step (now : Nat) (key : TaskKey) (w : World) : ReportCall → World × ReportCall
  | fresh ids _ limit =>
    if w.reports.isClosed then (w, .finished (.error .queueClosed) now)
    else
      ({ w with reports := { w.reports with places := w.reports.places.request key } },
        .inLine ids (deadline now limit))
  | inLine ids deadline =>
    if w.reports.isClosed then (w, .finished (.error .queueClosed) now)
    else if w.reports.places.holds key then
      ({ w with reports := { w.reports with jobs := w.reports.jobs ++ [⟨key, ids, deadline⟩] } },
        .listening deadline)
    else
      ({ w with reports := { w.reports with places := w.reports.places.leave key } },
        .finished (.error .cancelled) now)
  | listening _ =>
    match w.reports.replies.get? key with
    | some answer => (w, .finished answer now)
    | none => (w, .finished (.error .cancelled) now)
  | finished answer time => (w, .finished answer time)

end ReportCall

end Reachability.Engine
