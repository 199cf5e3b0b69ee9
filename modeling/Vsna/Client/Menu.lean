import Vsna.Client.Client

set_option relaxedAutoImplicit false
set_option autoImplicit false

/-!
# The menu of commands

The menu items of `client/cli/menu.h` and `client/cli/menu.cpp`, and the table of them that
`CommandManager::initCommands` fills. The table is a hash table; nothing but the order of the
lines that `help` prints depends on the order of its entries.

## Main definitions

* `Vsna.Command`, `Vsna.MenuItem`, `Vsna.MenuItem.handle` — the menu items and their handlers.
* `Vsna.initCommands`, `Vsna.findCommand` — the table, and looking up a command in it.

## Main results

* `Vsna.MenuItem.handle_eq_some` — what a handler returns, and what it does to the sessions.
* `Vsna.findCommand_exit` — the item that leaves the prompt is found under one name only.
-/

namespace Vsna

open Text Websocket

/-- The classes derived from `MenuItem`. -/
inductive Command
  | connect
  | showPath
  | myPath
  | sendFiles
  | download
  | print
  | exit
  | help
  deriving DecidableEq

/-- A menu item: its class, and the members that `MenuItem` has. -/
structure MenuItem where
  command : Command
  name : Str
  desc : Str
  usage : Str
  deriving DecidableEq

/-- `CommandManager::initCommands`. -/
def initCommands : List MenuItem :=
  [⟨.exit, "exit", "Exit the program", ""⟩,
    ⟨.print, "print", "Print the server path", ""⟩,
    ⟨.myPath, "mypath", "Show the client path", ""⟩,
    ⟨.connect, "connect", "Connect to the server", ""⟩,
    ⟨.showPath, "showpath", "Show the server path", ""⟩,
    ⟨.download, "download", "Download a file", ""⟩,
    ⟨.sendFiles, "sendfiles", "Send files", ""⟩,
    ⟨.help, "help", "Show help", "[command]"⟩]

/-- `_commands.find(name)`. -/
def findCommand (name : Str) : Option MenuItem := initCommands.find? fun item => item.name = name

/-- The line `help` prints about a menu item. -/
def MenuItem.helpLine (item : MenuItem) : Str :=
  "\t" ++ item.name ++ (if item.usage ≠ [] then " " ++ item.usage else []) ++ " - " ++
    item.desc ++ "\n"

/-- `HelpCommand::handle`. -/
def Client.help (c : Client) : Client :=
  initCommands.foldl (fun c item => c.write item.helpLine) (c.write "[=] Available commands:\n")

namespace MenuItem

/-- `handle(args)`: whether to leave the prompt, and the client after it. The events `es` are
those that happen while the handler runs the `io_context`, if it does. -/
def handle (item : MenuItem) (c : Client) (args : List Str) (es : List (ℕ × Event UInt8)) :
    Option (Bool × Client) :=
  match item.command with
  | .connect => (c.connect args es).map fun c => (false, c)
  | .showPath => some (false, c.showPath args)
  | .myPath => some (false, c.myPath args)
  | .sendFiles => some (false, c.sendFiles args)
  | .download => some (false, c.download args)
  | .print => some (false, c.print)
  | .exit => some (true, c.write "[~] Program was exit.\n")
  | .help => some (false, c.help)

variable {item : MenuItem} {c c' : Client} {args : List Str} {es : List (ℕ × Event UInt8)}
  {b : Bool} {k : ℕ}

/-- Printing lines does not change the sessions. -/
lemma sessions_foldl_write (items : List MenuItem) (h : Client.Sessions k c) :
    Client.Sessions k (items.foldl (fun c item => c.write item.helpLine) c) := by
  induction items generalizing c with
  | nil => exact h
  | cons item items ih => exact ih (h.congr rfl rfl)

/-- **What a handler returns**, and what it does to the sessions: only `exit` leaves the prompt,
and only `connect` creates a session. -/
lemma handle_eq_some (h : item.handle c args es = some (b, c')) :
    b = decide (item.command = .exit) ∧ ∀ k, Client.Sessions k c →
      Client.Sessions (k + if item.command = .connect then 1 else 0) c' := by
  obtain ⟨command, name, desc, usage⟩ := item
  cases command with
  | connect =>
    obtain ⟨c₁, hc₁, heq⟩ := Option.map_eq_some_iff.mp h
    obtain ⟨rfl, rfl⟩ := (Prod.mk.injEq ..).mp heq
    exact ⟨rfl, fun _ hs => hs.connect hc₁⟩
  | help =>
    obtain ⟨rfl, rfl⟩ := (Prod.mk.injEq ..).mp (Option.some.inj h)
    exact ⟨rfl, fun _ hs => sessions_foldl_write _ (hs.congr rfl rfl)⟩
  | _ =>
    obtain ⟨rfl, rfl⟩ := (Prod.mk.injEq ..).mp (Option.some.inj h)
    exact ⟨rfl, fun _ hs => hs.congr rfl rfl⟩

/-- Every handler can return. -/
lemma exists_handle (item : MenuItem) (h : Client.Sessions k c) (args : List Str) :
    ∃ es r, item.handle c args es = some r := by
  obtain ⟨command, name, desc, usage⟩ := item
  cases command with
  | connect =>
    obtain ⟨es, c', hc'⟩ := h.exists_connect args
    exact ⟨es, (false, c'), Option.map_eq_some_iff.mpr ⟨c', hc', rfl⟩⟩
  | _ => exact ⟨[], _, rfl⟩

end MenuItem

/-- **The item that leaves the prompt** is found under the name `"exit"`, and no other. -/
lemma findCommand_exit (name : Str) :
    (∃ item, findCommand name = some item ∧ item.command = .exit) ↔ name = "exit" := by
  constructor
  · rintro ⟨item, hfind, hexit⟩
    have hnames : ∀ item ∈ initCommands, item.command = .exit → item.name = "exit" := by decide
    have hname : item.name = name := by simpa using List.find?_some hfind
    exact hname ▸ hnames item (List.mem_of_find?_eq_some hfind) hexit
  · rintro rfl
    exact ⟨_, rfl, rfl⟩

end Vsna
