import Solverr.Launch.Arguments
import Solverr.Lib.Procedure

/-!
# The launch of a browser

`get_webdriver`, with `create_proxy_extension`, `_await_proxy_extension` and the constructor
of the vendored `Chrome`. Whatever is outside is a field of `World`: it answers or raises,
as it likes. `Frame` is what the launch has made so far: the arguments, the directory of the
extension on the disk, and the browser that runs.
-/

namespace Solverr.Launch

open Solverr.Lib
open Solverr.Lib.Procedure
open Solverr.Geo (ProxyConfig proxyToConfig)

/-! ## The state -/

/-- What is raised. -/
inductive Thrown
  | exception (text : Str)
  | valueError
  | outside

/-- The values in `background.js`. -/
structure Background where
  scheme : Str
  host : Option Str
  port : Option ℕ
  username : Json
  password : Json

/-- The directory of the extension. The credentials are in it once `background.js` is. -/
structure Extension where
  path : Str
  background : Option Background

/-- A process, and whether `quit` was called on its driver. -/
structure Browser where
  arguments : List Str
  quit : Bool

structure Frame where
  arguments : List Str
  performanceLog : Bool
  /-- The directory, while it is on the disk. -/
  directory : Option Extension
  browser : Option Browser
  /-- The extension's service worker was among the targets. -/
  workerSeen : Bool
  /-- `PATCHED_DRIVER_PATH` -/
  patchedDriver : Option Str

namespace Frame

def add (f : Frame) (arguments : List Str) : Frame :=
  { f with arguments := f.arguments ++ arguments }

def make (f : Frame) (path : Str) : Frame := { f with directory := some ⟨path, none⟩ }

def fill (f : Frame) (background : Background) : Frame :=
  { f with directory := f.directory.map fun d => { d with background := some background } }

/-- `shutil.rmtree(proxy_extension_dir)` -/
def remove (f : Frame) : Frame := { f with directory := none }

def start (f : Frame) (arguments : List Str) : Frame :=
  { f with browser := some ⟨arguments, false⟩ }

/-- `driver.quit()` -/
def quit (f : Frame) : Frame :=
  { f with browser := f.browser.map fun b => { b with quit := true } }

def see (f : Frame) : Frame := { f with workerSeen := true }

end Frame

/-! ## What is outside -/

/-- A target of the browser's. -/
structure Target where
  type : Str
  url : Str

/-- `target["type"] == "service_worker" and target["url"].startswith("chrome-extension://")` -/
def Target.isWorker (t : Target) : Bool :=
  t.type == flag "service_worker" && (flag "chrome-extension://").isPrefixOf t.url

/-- How the constructor of `Chrome` goes on once its own arguments are made. -/
structure Construction where
  /-- `start_detached`, or `Popen`: where it raises, with the process running or not. -/
  process : Except (Thrown × Bool) Unit
  /-- `ChromiumService(...)` -/
  service : Except Thrown Unit
  /-- Selenium's own constructor: where it raises, it has called `quit` or not. -/
  session : Except (Thrown × Bool) Unit

structure World where
  urls : UrlTables
  unicode : Unicode
  armArch : Bool
  /-- `geo.browser_language` -/
  language : Option ProxyConfig → Except Thrown Str
  responseHeaders : Bool
  userAgent : Option Str
  mkdtemp : Except Thrown Str
  writeManifest : Except Thrown Unit
  writeBackground : Except Thrown Unit
  /-- `get_config_headless()` -/
  headless : Bool
  /-- `os.name == 'nt'` -/
  windows : Bool
  display : Except Thrown Unit
  /-- `os.path.exists("/app/chromedriver")` -/
  docker : Bool
  majorVersion : Except Thrown Unit
  patchedDriver : Option Str
  chromePath : Except Thrown Unit
  /-- The constructor of `Chrome` up to the process. -/
  preparation : Except Thrown Added
  construction : Construction
  /-- `driver.execute_cdp_cmd("Target.getTargets", {})["targetInfos"]`, poll by poll. -/
  polls : ℕ → Except Thrown (List Target)
  /-- Where the patched driver goes, and whether it has to be copied there. -/
  patchedPath : Str
  patchedMoves : Bool
  copy : Except Thrown Unit

/-! ## The extension -/

/-- `all(key in proxy for key in ['url', 'username', 'password'])` -/
def authenticated (fields : List (Str × Json)) : Bool :=
  [flag "url", flag "username", flag "password"].all fun key => (Json.get? fields key).isSome

/-- `urllib.parse.urlparse(proxy['url'])`: a value that is not text raises. -/
def urlparse (t : UrlTables) (url : Json) : Except Thrown Url.Parts :=
  match url with
  | .str url =>
    match Url.urlsplit t url with
    | some parts => .ok parts
    | none => .error .valueError
  | _ => .error .outside

/-- `parsed_url.port` -/
def port (parts : Url.Parts) : Except Thrown (Option ℕ) :=
  match parts.port with
  | some port => .ok port
  | none => .error .valueError

/-- `proxy[key]` of a proxy that has the key. -/
def field (fields : List (Str × Json)) (key : Str) : Json := (Json.get? fields key).getD .null

/-- The two files of the extension. -/
def writeExtension (w : World) (background : Background) : Procedure Frame Thrown Unit := do
  answer w.writeManifest
  answer w.writeBackground
  change (·.fill background)

/-- `create_proxy_extension(proxy)` -/
def createProxyExtension (w : World) (fields : List (Str × Json)) :
    Procedure Frame Thrown Str := do
  let parts ← answer (urlparse w.urls (field fields (flag "url")))
  let port ← answer (port parts)
  let path ← answer w.mkdtemp
  change (·.make path)
  (writeExtension w
    { scheme := parts.scheme
      host := parts.hostname w.unicode
      port := port
      username := field fields (flag "username")
      password := field fields (flag "password") }).handling fun e => do
    change Frame.remove
    raise e
  return path

/-- `'%s://%s' % (parsed_proxy.scheme, parsed_proxy.netloc.rsplit('@', 1)[-1])` -/
def bareProxy (parts : Url.Parts) : Str :=
  parts.scheme ++ flag "://" ++ (rcut '@'.toNat parts.netloc).2

/-- The switch of a proxy with credentials, whose extension is in the directory. -/
def withExtension (w : World) (fields : List (Str × Json)) :
    Procedure Frame Thrown (Option Str) := do
  let path ← createProxyExtension w fields
  let parts ← answer (urlparse w.urls (field fields (flag "url")))
  change (·.add [proxyServer ++ bareProxy parts])
  return some path

/-- `'--proxy-server=%s' % proxy['url']`: `proxy_to_config` has made sure of the text. -/
def verbatim (url : Json) : Procedure Frame Thrown (Option Str) := do
  match url with
  | .str url =>
    change (·.add [proxyServer ++ url])
    return none
  | _ => raise .outside

/-- The switch, and the directory of the extension if there is one. -/
def proxyArguments (w : World) : Json → Procedure Frame Thrown (Option Str)
  | .obj fields =>
    if authenticated fields then withExtension w fields
    else
      match Json.get? fields (flag "url") with
      | some url => verbatim url
      | none => pure none
  | _ => pure none

/-! ## The browser -/

/-- The constructor's end: `quit` was called or not. -/
def connect : Except (Thrown × Bool) Unit → Procedure Frame Thrown Unit
  | .ok () => pure ()
  | .error (e, true) => do
    change Frame.quit
    raise e
  | .error (e, false) => raise e

/-- The process is started, and is there even where the start raises after all. -/
def spawn (arguments : List Str) : Except (Thrown × Bool) Unit → Procedure Frame Thrown Unit
  | .ok () => change (·.start arguments)
  | .error (e, true) => do
    change (·.start arguments)
    raise e
  | .error (e, false) => raise e

/-- `uc.Chrome(options=options, …)` -/
def chrome (w : World) : Procedure Frame Thrown Unit := do
  let added ← answer w.preparation
  let f ← fun f => (.ok f, f)
  spawn (commandLine added f.arguments) w.construction.process
  answer w.construction.service
  connect w.construction.session

/-- `"Chrome did not load the proxy extension, so the proxy cannot authenticate"` -/
def noWorker : Thrown :=
  .exception (flag "Chrome did not load the proxy extension, so the proxy cannot authenticate")

/-- The loop of `_await_proxy_extension` from poll `i` on, with `left` polls to go. -/
def awaitFrom (polls : ℕ → Except Thrown (List Target)) : ℕ → ℕ → Procedure Frame Thrown Unit
  | 0, _ => do
    change Frame.quit
    raise noWorker
  | left + 1, i => do
    let targets ← answer (polls i)
    if targets.any Target.isWorker then change Frame.see else awaitFrom polls left (i + 1)

/-- `_EXTENSION_LOAD_POLLS` -/
def extensionLoadPolls : ℕ := 100

/-- `_await_proxy_extension(driver)` -/
def awaitProxyExtension (w : World) : Procedure Frame Thrown Unit :=
  awaitFrom w.polls extensionLoadPolls 0

/-- `start_xvfb_display()`, where there is something to hide. -/
def hideWindow (w : World) : Procedure Frame Thrown Unit :=
  if w.headless && !w.windows then answer w.display else pure ()

/-- `get_chrome_major_version()`, outside Docker. -/
def findVersion (w : World) : Procedure Frame Thrown Unit :=
  if w.docker then pure () else answer w.majorVersion

def awaitIf (w : World) (directory : Option Str) : Procedure Frame Thrown Unit :=
  if directory.isSome then awaitProxyExtension w else pure ()

/-- The `try` block. -/
def launch (w : World) (directory : Option Str) : Procedure Frame Thrown Unit := do
  change (·.add (lastArguments directory))
  hideWindow w
  findVersion w
  answer w.chromePath
  chrome w
  awaitIf w directory

/-- The driver is patched anew: it is none of Docker's, and none is saved yet. -/
def World.patches (w : World) : Bool := !w.docker && w.patchedDriver.isNone

/-- Saving the patched driver. -/
def savePatched (w : World) : Procedure Frame Thrown Unit := do
  change fun f => { f with patchedDriver := some w.patchedPath }
  if w.patchedMoves then answer w.copy else pure ()

def saveIf (w : World) : Procedure Frame Thrown Unit :=
  if w.patches then savePatched w else pure ()

/-- `geo.proxy_to_config(proxy)` -/
def config (proxy : Json) : Except Thrown (Option ProxyConfig) :=
  (proxyToConfig proxy).mapError .exception

/-- What comes before the `try` block. -/
def arrange (w : World) (proxy : Json) : Procedure Frame Thrown (Option Str) := do
  let cfg ← answer (config proxy)
  let language ← answer (w.language cfg)
  change (·.add (languageArguments language))
  change fun f => { f with performanceLog := w.responseHeaders }
  change (·.add (userAgentArguments w.userAgent))
  proxyArguments w proxy

/-- The `finally` block. -/
def clear (directory : Option Str) (f : Frame) : Frame :=
  if directory.isSome then f.remove else f

def World.frame (w : World) : Frame :=
  ⟨firstArguments w.armArch, false, none, none, false, w.patchedDriver⟩

/-- `get_webdriver(proxy)`, begun in `w.frame`. -/
def getWebdriver (w : World) (proxy : Json) : Procedure Frame Thrown Unit := do
  let directory ← arrange w proxy
  (launch w directory).cleaning (clear directory)
  saveIf w

end Solverr.Launch
