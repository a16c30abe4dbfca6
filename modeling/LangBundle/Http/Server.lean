import LangBundle.Http.Upload
import LangBundle.Pipeline
import LangBundle.Text.MachineNumber

/-!
# The compile server

The routes of the server: a banner at `/`, the state of the tools at `/health`, and `/compile`,
which takes an upload, builds it and answers with the bundle.  A workspace is made for each upload
and removed on every way out; on success the response's body removes it.
-/

namespace LangBundle.Http

/-- A server: its pipeline, and the most bytes that a request's body may have. -/
structure Server where
  pipeline : Pipeline
  maxBody : Nat

namespace Server

/-- The most bytes that a body may have if nothing else is said. -/
def defaultMaxBody : Nat := 32 * 1024 * 1024

/-- The version that the server says it has. -/
def version : String := "0.1.0"

/-- The greeting of the server. -/
def banner : String := "Hello world!\n"

/-- The media type of the bundle. -/
def bundleType : String := "application/zip"

/-- The length that is declared for a file opened for reading. -/
def declaredLength (h : Host) (source : Files.Source) : Nat :=
  match source with
  | .directory => 4096
  | _ => ((h.files.readAll source).toOption.getD []).length

/-- Answers with a bundle.  The response's body owns the workspace; if the bundle cannot be opened
the workspace is removed at once. -/
def deliver (bundle : String) (workspace : Workspace) (h : Host) : Except Error Response × Host :=
  match h.files.openRead h.cwd bundle with
  | .error fault => (.error (.build (.io bundle fault.message)), workspace.drop h)
  | .ok source =>
    (.ok {
      status := 200
      headers := [("content-type", bundleType),
        ("content-disposition", "attachment; filename=" ++ Bundle.downloadName)]
      length := some (declaredLength h source)
      body := .download { source, workspace } }, h)

/-- The size that a request declares for its body, if it declares one that can be read. -/
def declaredSize? (r : Request) : Option Nat := do
  let text ← visible? (← r.header? "content-length")
  (Text.unsigned text).toOption

/-- The boundary of the upload that a request declares. -/
def boundary? (r : Request) : Option String := do
  let text ← visible? (← r.header? "content-type")
  (← MediaType.ofText? text).boundary?

/-- What is said about a request that declares no upload. -/
def noBoundary : Response :=
  .text 400 "Invalid `boundary` for `multipart/form-data` request"

/-- Takes an upload into a workspace and builds it; gives the path of the bundle. -/
def buildUpload (s : Server) (r : Request) (boundary : String) (w : Workspace) (h : Host) :
    Except Error String × Host :=
  if s.maxBody < r.body.length then
    (.error (.multipart 413 "Request payload is too large"), h)
  else if r.broken then (.error (.multipart 500 "failed to read stream"), h)
  else match Upload.store boundary r.body w h with
    | (.error e, h) => (.error e, h)
    | (.ok intake, h) =>
      match intake.finish with
      | .error e => (.error (.build e), h)
      | .ok inputs =>
        match s.pipeline.build w.path inputs h with
        | .ok bundle h => (.ok bundle, h)
        | .error e h => (.error (.build e), h)

/-- Takes an upload, builds it and delivers the bundle. -/
def compileUpload (s : Server) (r : Request) (boundary : String) (h : Host) :
    Except Error Response × Host :=
  match declaredSize? r with
  | some size =>
    if s.maxBody < size then (.error (.payloadTooLarge size s.maxBody), h) else go h
  | none => go h
where
  /-- What follows once the declared size is accepted. -/
  go (h : Host) : Except Error Response × Host :=
    match s.pipeline.acquireWorkspace h with
    | .error e h => (.error (.build e), h)
    | .ok w h =>
      match s.buildUpload r boundary w h with
      | (.error e, h) => (.error e, w.drop h)
      | (.ok bundle, h) => deliver bundle w h

/-- Answers a request to compile. -/
def compile (s : Server) (r : Request) (h : Host) : Response × Host :=
  match boundary? r with
  | none => (noBoundary, h)
  | some boundary =>
    match s.compileUpload r boundary h with
    | (.ok response, h) => (response, h)
    | (.error e, h) => (e.toResponse, h)

/-- The state of the tools as a JSON object with its keys in order. -/
def health (s : Server) (h : Host) : Response :=
  let r := s.pipeline.tools.report h
  let object (members : List (String × String)) : String :=
    "\x7b" ++ ",".intercalate (members.map fun (k, v) => Text.json k ++ ":" ++ v) ++ "\x7d"
  let one (t : ToolStatus) : String :=
    object [("available", if t.available then "true" else "false"), ("path", Text.json t.path)]
  let text := object [("status", Text.json "ok"),
    ("toolchain", object [("bison", one r.bison), ("emcc", one r.emcc), ("flex", one r.flex)]),
    ("version", Text.json version)]
  { status := 200, headers := [("content-type", "application/json")]
    body := .bytes (Utf8.ofString text) }

/-- What a path of the server offers. -/
inductive Route where
  | banner
  | health
  | compile
  deriving Repr, DecidableEq

/-- The methods of a route, as the `allow` header lists them. -/
def Route.allow : Route → String
  | .banner | .health => "GET,HEAD"
  | .compile => "POST"

/-- The path of a request's target: without the query and without scheme and host. -/
def pathOf (target : String) : String :=
  let cs := target.toList.takeWhile (· != '#')
  let pathFrom (cs : List Char) : String :=
    match cs.takeWhile (· != '?') with
    | [] => "/"
    | path => String.ofList path
  if cs.head? = some '/' then pathFrom cs
  else match Multipart.cut? (Utf8.ofString "://") (Utf8.encode cs) with
    | some (_, behind) =>
      let rest := (Utf8.decodeLossy behind).toList
      pathFrom (rest.dropWhile fun c => c != '/' && c != '?')
    | none => target

/-- The route of a path; paths match exactly. -/
def route? (path : String) : Option Route :=
  match path with
  | "/" => some .banner
  | "/health" => some .health
  | "/compile" => some .compile
  | _ => none

/-- The response to a method that a route does not have. -/
def wrongMethod (route : Route) : Response :=
  { status := 405, headers := [("allow", route.allow)] }

/-- The response without its body; the declared length stays. -/
def withoutBody (r : Response) : Response :=
  { r with body := .bytes [] }

/-- Answers a request to a route. -/
def answerRoute (s : Server) (route : Route) (r : Request) (h : Host) : Response × Host :=
  match route, r.method with
  | .banner, "GET" => ((Response.text 200 banner).sized, h)
  | .banner, "HEAD" => (withoutBody (Response.text 200 banner).sized, h)
  | .health, "GET" => ((s.health h).sized, h)
  | .health, "HEAD" => (withoutBody (s.health h).sized, h)
  | .compile, "POST" =>
    let (response, h) := s.compile r h
    (response.sized, h)
  | route, _ => ((wrongMethod route).sized, h)

/-- The response where no route is.  A target that is no path is answered with a length. -/
def notFound (path : String) : Response :=
  let r : Response := { status := 404 }
  if Path.isAbsolute path then r else r.sized

/-- The headers that let pages of any origin use the server. -/
def sharedHeaders : List (String × String) :=
  [("access-control-allow-origin", "*"),
    ("vary", "origin, access-control-request-method, access-control-request-headers")]

/-- The response to a browser that asks what it may do. -/
def preflight (path : String) : Response :=
  let headers := sharedHeaders ++
    [("access-control-allow-headers", "*"), ("access-control-allow-methods", "*")]
  match route? path with
  | some route =>
    { status := 200, headers := headers ++ [("allow", route.allow)], length := some 0 }
  | none => { notFound path with status := 200, headers }

/-- Answers a request. -/
def handle (s : Server) (r : Request) (h : Host) : Response × Host :=
  let path := pathOf r.target
  if r.method = "OPTIONS" then (preflight path, h)
  else
    let (response, h) := match route? path with
      | some route => s.answerRoute route r h
      | none => (notFound path, h)
    ({ response with headers := response.headers ++ sharedHeaders ++
        [("access-control-expose-headers", "*")] }, h)

end Server

end LangBundle.Http
