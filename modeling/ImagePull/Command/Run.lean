import ImagePull.Command.Arguments
import ImagePull.Command.Output
import ImagePull.Config.Discovery
import ImagePull.Daemon.Endpoint

/-!
# Running commands

A run reads its surroundings, may ask a daemon, and yields what it prints, what it
writes and how it ends. A run that fails says why behind everything else, with a hint
if there is one. It looks at few paths: those it is told, those at which a configuration,
stored logins and sockets usually are, and the socket that the configuration names.
-/

namespace ImagePull.Command

/-- What a run reads: its surroundings, its standard input, and the daemons behind
sockets. -/
structure World where
  surroundings : Surroundings
  input : List UInt8 := []
  daemon : String → Daemon

/-- How a run ends. -/
structure Outcome where
  code : UInt32
  output : List OutputLine := []
  complaints : List OutputLine := []
  /-- A file that is written, with its content. -/
  written : Option (String × String) := none
  /-- The requests that were made, in order. -/
  requests : List Request := []

namespace Outcome

/-- The outcome of a report. -/
def ofReport (r : Report) (requests : List Request) : Outcome :=
  match r.result with
  | .ok _ => { code := 0, output := r.output, complaints := r.complaints, requests }
  | .error e =>
    let said := OutputLine.plain ("Error: " ++ e.message) ::
      (e.hint?.toList.map fun hint => .plain ("Hint: " ++ hint))
    { code := 1, output := r.output, complaints := r.complaints ++ said, requests }

/-- The outcome of a run that failed before it showed anything. -/
def ofFailure (e : Failure) : Outcome :=
  ofReport { result := .error e } []

end Outcome

/-- The name and the version of the program. -/
def version : String := "pullscope 0.1.0"

/-- How the program is called. -/
def usage : String :=
  "Usage: pullscope [--verbose] [--output <normal|quiet|json>] <init|replay|pull>"

/-- Creates a configuration. -/
def init (s : Surroundings) (force : Bool) : Outcome :=
  match Config.initPath s force with
  | .error e => .ofFailure (.config e)
  | .ok path =>
    { code := 0, output := [.plain ("Created " ++ path)]
      written := some (path, Config.template) }

/-- Whether a path stands for standard input: a lone dash, behind which only empty names
and dots may follow. -/
def isInput (path : String) : Bool :=
  match Text.pieces '/' path.toList with
  | ['-'] :: names => names.all fun name => name == [] || name == ['.']
  | _ => false

/-- What the recording at a path delivers. -/
def recording (w : World) (path : String) : Except Failure (List Stream.Delivery) :=
  if isInput path then .ok [.chunk w.input]
  else match w.surroundings.entry path with
    | .file content => .ok [.chunk content]
    | .directory => .ok [.failure "Is a directory (os error 21)"]
    | e => match e.bytes with
      | .ok content => .ok [.chunk content]
      | .error reason => .error (.invalidArgument ("cannot open " ++ path ++ ": " ++ reason))

/-- Replays a recording. -/
def replay (w : World) (c : Config) (mode : OutputMode) (a : ReplayArguments) :
    Except Failure Report := do
  let flavor := (a.flavor <|> c.runtime).getD .docker
  let (manifest, resolved) ← match a.manifest with
    | some path =>
      match Manifest.load w.surroundings path a.digest with
      | .ok r => pure (r.manifest, some r.digest)
      | .error e => throw (.manifest e)
    | none => pure ({}, a.digest)
  let context : Context := { reference := a.reference, manifest, flavor, resolved }
  let deliveries ← recording w a.file
  let reference := a.reference.text
  let report := Report.follow mode reference none
    (Stream.track context c.queueCapacity.toNat deliveries)
  let opening := Report.opening mode ("Replaying " ++ reference ++ " (" ++ flavor.name ++ ")")
  return { report with output := opening ++ report.output }

/-- The snapshots of a pull, and its time limit if that cut it short. A stream that
stays open is cut when all that came has been shown; a limit of no time at all cuts
before anything is shown. -/
def pullItems (b : BegunPull) (capacity : Nat) (limit : Option Duration) :
    List StreamItem × Option String :=
  let channel := Stream.Channel.new b.context capacity b.reply.deliveries
    (b.reply.contentEnding != .open)
  match limit with
  | none => (channel.drain.received, none)
  | some limit =>
    if limit = .zero then (channel.cancel.drain.received, some limit.text)
    else if b.reply.contentEnding = .open then (channel.drain.cancel.drain.received, some limit.text)
    else (channel.drain.received, none)

/-- Why a query cannot be made. -/
def unreachable : String := "Error in the hyper legacy client: client error (Connect)"

/-- The daemon of an endpoint. A query goes to another path than a request to pull if the
socket has a scheme in it. -/
def World.daemonOf (w : World) (e : Endpoint) : Daemon where
  answer r :=
    match r.method with
    | .get =>
      match (w.surroundings.entry e.queryPath).silence? with
      | some _ => .error unreachable
      | none => (w.daemon e.queryPath).answer r
    | .post =>
      match (w.surroundings.entry e.socket).silence? with
      | some reason => .error reason
      | none => (w.daemon e.socket).answer r

/-- Connects to the endpoint that is configured or found. -/
def connect (w : World) (c : Config) : Except RuntimeError (Endpoint × Daemon) :=
  match Endpoint.detect w.surroundings c.runtime c.socket with
  | .error e => .error (.detection e)
  | .ok endpoint =>
    if (w.surroundings.entry endpoint.queryPath).exists? then
      .ok (endpoint, w.daemonOf endpoint)
    else
      .error (.connection (.connectionFailed ("Socket not found: " ++ endpoint.queryPath)))

/-- Pulls an image through a daemon. -/
def pullThrough (w : World) (c : Config) (mode : OutputMode) (a : PullArguments) (d : Daemon) :
    Exchange Report := do
  match c.credentials w.surroundings with
  | .error e => return { result := .error (.config e) }
  | .ok credentials =>
    let source := match a.manifest with
      | some path => ManifestSource.given (Manifest.load w.surroundings path none)
      | none => .daemon
    let request : PullRequest := { image := a.image, platform := a.platform <|> c.platform }
    match ← (d.begin source credentials request).run with
    | .error e => return { result := .error (.session e) }
    | .ok begun =>
      let (items, cut) := pullItems begun c.queueCapacity.toNat (a.timeout <|> c.timeout)
      return Report.follow mode a.image.text cut items

/-- Pulls an image. -/
def pull (w : World) (c : Config) (mode : OutputMode) (a : PullArguments) : Outcome :=
  match connect w c with
  | .error e => .ofFailure (.runtime e)
  | .ok (endpoint, d) =>
    let (report, requests) := (pullThrough w c mode a d).run []
    let opening := Report.opening mode
      ("Using " ++ endpoint.flavor.name ++ " at " ++ endpoint.socket)
    .ofReport { report with output := opening ++ report.output } requests.reverse

/-- Runs a command. -/
def Invocation.run (w : World) (i : Invocation) : Outcome :=
  match i.action with
  | .init force => init w.surroundings force
  | .replay a => configured fun c mode => match replay w c mode a with
    | .error e => .ofFailure e
    | .ok report => .ofReport report []
  | .pull a => configured fun c mode => pull w c mode a
where
  /-- Runs under the configuration of the directory. -/
  configured (run : Config → OutputMode → Outcome) : Outcome :=
    match Config.discoverOrDefault w.surroundings with
    | .error e => .ofFailure (.config e)
    | .ok c => run c ((i.output <|> c.output).getD .normal)

/-- Runs the command that the words ask for. -/
def run (w : World) (words : List String) : Outcome :=
  match Invocation.ofWords words with
  | .ok i => i.run w
  | .error .version => { code := 0, output := [.plain version] }
  | .error .help => { code := 0, output := [.plain usage] }
  | .error .usage => { code := 2, complaints := [.plain usage] }

/-! ## What a run looks at -/

/-- The paths that a command is told. -/
def Action.paths : Action → List String
  | .init _ => []
  | .replay a => a.file :: a.manifest.toList
  | .pull a => a.manifest.toList

/-- The paths that a run may look at whatever it finds there. -/
def Invocation.paths (s : Surroundings) (i : Invocation) : List String :=
  i.action.paths ++ Config.fileNames.map (Surroundings.join s.directory) ++
    (CredentialStore.dockerConfigPath? s.valueOf?).toList ++
    [Endpoint.processStatus, Endpoint.defaultSocket .podman, Endpoint.defaultSocket .docker]

/-- The sockets that a run may look at, which depend on what the other paths hold. -/
def Invocation.sockets (s : Surroundings) : List String :=
  let c := (Config.discover s).toOption.getD {}
  (Endpoint.user? s).toList.map Endpoint.userSocket ++
    (Endpoint.detect s c.runtime c.socket).toOption.toList.flatMap fun e =>
      [e.socket, e.queryPath]

end ImagePull.Command
