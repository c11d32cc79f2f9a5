import PkgRecipe.Failure

namespace PkgRecipe

/-! What a run asks of the world outside it, processes and downloads, what is answered, and what
the run reports. -/

inductive ProcessReply where
  | ended (status : Int) (output complaint : List Char)
  | missing
  | denied (reason : List Char)
  | interrupted
  /-- What the process printed, or complained of, is no text. -/
  | undecodable (fault : Text.Utf8.Fault)
deriving Repr

structure Body where
  bytes : List UInt8
  /-- Whether it is known how many bytes are left, so that no more of them are asked for. -/
  isSized : Bool := false
deriving DecidableEq, Repr

instance : Coe (List UInt8) Body :=
  ⟨fun bytes => { bytes }⟩

inductive DownloadReply where
  | body (body : Body)
  | failed (reason : List Char)
  /-- The source or its response breaks the rules of the protocol. -/
  | broken (reason : List Char)
  | interrupted
deriving Repr

inductive LogLevel where
  | debug
  | info
  | warning
deriving DecidableEq, Repr

/-- A log record, or a message for the user with the name of its style. -/
inductive Event where
  | log (level : LogLevel) (message : List Char)
  | status (style message : List Char)
deriving DecidableEq, Repr

/-- Shows the user a message in a style, which may fail. -/
abbrev StatusCallback := (style message : List Char) → Except Failure Unit

structure Outside where
  /-- The replies to the processes that are still to be started. -/
  processReplies : List ProcessReply
  /-- The replies to the downloads that are still to be requested. -/
  downloadReplies : List DownloadReply
  /-- The program and arguments of each process that was to be started. -/
  started : List (List (List Char)) := []
  /-- The location of each download requested. -/
  requested : List (List Char) := []
  events : List Event := []

/-- A computation that may ask, report and fail. What it asked and reported outlives a failure. -/
abbrev Run := ExceptT Failure (StateM Outside)

namespace Run

def report (event : Event) : Run Unit :=
  modify fun o => { o with events := o.events ++ [event] }

def log (level : LogLevel) (message : List Char) : Run Unit :=
  report (.log level message)

def tell (status : StatusCallback) (style message : List Char) : Run Unit := do
  ExceptT.mk (pure (status style message))
  report (.status style message)

def tell? (status? : Option StatusCallback) (style message : List Char) : Run Unit :=
  match status? with
  | none => return
  | some status => tell status style message

/-- What comes of a process. Null characters cannot be handed over to it; without a reply the program
is missing. -/
def answer (arguments : List (List Char)) (replies : List ProcessReply) :
    Except Failure ProcessReply :=
  if arguments.any (·.contains '\x00') then .error .nullCharacter
  else .ok (replies.head?.getD .missing)

def start (arguments : List (List Char)) : Run ProcessReply := do
  let o ← get
  set { o with processReplies := o.processReplies.tail, started := o.started ++ [arguments] }
  ExceptT.mk (pure (answer arguments o.processReplies))

/-- Requests a download. Without a reply the source is unreachable. -/
def download (location : List Char) : Run DownloadReply := do
  let o ← get
  set { o with
    downloadReplies := o.downloadReplies.tail, requested := o.requested ++ [location] }
  return o.downloadReplies.head?.getD (.failed "unreachable".toList)

section Steps

variable {α β : Type}

theorem bind_apply (run : Run α) (next : α → Run β) (o : Outside) :
    (run >>= next) o =
      match run o with
      | (.ok a, after) => next a after
      | (.error failure, after) => (.error failure, after) := by
  simp only [bind, ExceptT.bind, ExceptT.mk, ExceptT.bindCont, StateT.bind]
  rcases run o with ⟨_ | a, after⟩
  · rfl
  · rfl

theorem pure_apply (a : α) (o : Outside) : (pure a : Run α) o = (.ok a, o) :=
  rfl

theorem bind_pure_apply (run : Run α) (f : α → β) (o : Outside) :
    (run >>= fun a => pure (f a)) o = ((run o).1.map f, (run o).2) := by
  rw [bind_apply]
  rcases run o with ⟨failure | a, after⟩
  · rfl
  · rfl

theorem discard_apply (run : Run α) (o : Outside) :
    (discard run : Run Unit) o = ((run o).1.map fun _ => (), (run o).2) :=
  bind_pure_apply run (fun _ => ()) o

theorem log_apply (level : LogLevel) (message : List Char) (o : Outside) :
    log level message o = (.ok (), { o with events := o.events ++ [.log level message] }) :=
  rfl

theorem tell_apply (status : StatusCallback) (style message : List Char) (o : Outside) :
    tell status style message o =
      match status style message with
      | .ok _ => (.ok (), { o with events := o.events ++ [.status style message] })
      | .error failure => (.error failure, o) := by
  rw [tell, bind_apply]
  cases status style message with
  | ok _ => rfl
  | error failure => rfl

theorem start_apply (arguments : List (List Char)) (o : Outside) :
    start arguments o = (answer arguments o.processReplies, { o with
      processReplies := o.processReplies.tail, started := o.started ++ [arguments] }) :=
  rfl

theorem download_apply (location : List Char) (o : Outside) :
    download location o =
      (.ok (o.downloadReplies.head?.getD (.failed "unreachable".toList)), { o with
        downloadReplies := o.downloadReplies.tail, requested := o.requested ++ [location] }) :=
  rfl

end Steps

end Run

end PkgRecipe
