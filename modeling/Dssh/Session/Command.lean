import Dssh.Session.Environment
import Dssh.Session.Input
import Dssh.Session.Limit
import Dssh.Session.Setup

/-!
# Starting a remote process

What the server makes of a session that has been set up: the command with its arguments,
environment and working directory, the relay of its output, and what is sent in front of that.

## From the setup to a command

`session_setup` returns what the client has asked for. Three functions make a command of it.
`CommandMode` says whether the shell of the user is run as a login shell or with `-c` and the
text from the client. The text is passed as one argument, so what is in it is the shell's
business. `argv0` is the name of the shell, with a dash in front for a login shell. The
environment is built by `build_env`, which has a module of its own.

The host enters as a record, `SessionHost`: the user, the files that are looked at, and how
allocating a terminal goes. What it contains is what a session depends on and does not change.

## The order of what is sent

In front of the output comes the message of the day, if the session is a login shell with a
terminal, the user has not silenced it, and there is one. It is sent as data on the same
channel, before the relay starts, so a client cannot tell it from output: `opening` and
`greeting_sent` say that it is there, once, and first.

The two ways to run a process differ in where its standard error goes. With pipes there are two
streams, and with a terminal there is one. `SessionHost.spawn` chooses the relay accordingly.

## What is not modelled

What the process does, apart from its output and its status. Dropping privileges is in
`Privilege`, and the controlling terminal and file descriptors are set up by the kernel.

## Main definitions

* `CommandMode`, `Command`, `SessionHost` — what is spawned, and what it depends on
* `SessionHost.command`, `SessionHost.spawn` — the command and the process for a setup
* `SessionHost.opening` — what is sent in front of the output

## Main results

* `SessionHost.greeting_sent` — in front of the output there is one message at most, the message
  of the day for a login shell with a terminal
-/

namespace Dssh

/-! ## The command

What `Command` is built from, field by field. The host is whatever does not depend on the client. -/

/-- `CommandMode` -/
inductive CommandMode where
  /-- `-c` with the text from the client. -/
  | exec (shell : OsString) (command : List UInt8)
  /-- A login shell. -/
  | shell (shell : OsString)

/-- `Path::file_name`: the last component, unless that is `..` or there is none. -/
def fileName (path : OsString) : Option OsString :=
  match ((path.splitOn 47).filter fun p => p ≠ [] ∧ p ≠ [46]).getLast? with
  | some name => if name = [46, 46] then none else some name
  | none => none

namespace CommandMode

/-- The shell of the user, in either mode. -/
def program : CommandMode → OsString
  | exec path _ => path
  | shell path => path

/-- `-c` and the command; a login shell has no arguments. -/
def args : CommandMode → List OsString
  | exec _ command => [[45, 99], command]
  | shell _ => []

/-- A login shell has a dash in front of its name. -/
def argv0 (mode : CommandMode) : OsString :=
  let basename := (fileName mode.program).getD mode.program
  match mode with
  | shell _ => 45 :: basename
  | exec _ _ => basename

end CommandMode

/-- What is spawned: `tokio::process::Command`. -/
structure Command where
  /-- The file that is executed. -/
  program : OsString
  /-- The name that the program sees. -/
  arg0 : OsString
  /-- Its arguments, without the name. -/
  args : List OsString
  /-- The whole environment; nothing is inherited. -/
  env : List (OsString × OsString)
  /-- Where it starts. -/
  cwd : OsString
  /-- The terminal that it gets. -/
  pty : Option PtyPair

/-- The server, as far as a session depends on it. -/
structure SessionHost where
  /-- For the environment of the process. -/
  environment : Environment.Host
  /-- Whom the session is for. -/
  user : UserInfo
  /-- The home directory exists. -/
  homeIsDir : Bool
  /-- The user wants no greeting. -/
  hushlogin : Bool
  /-- The greeting, if the file can be read. -/
  motd : Option (List UInt8)
  /-- The kernel gives a terminal, or refuses. -/
  openpty : Winsize → Option ℕ
  /-- A greeting fits in a message. -/
  motd_lt : ∀ data, motd = some data → data.length < 2 ^ 62

namespace SessionHost

/-- The mode for what has been set up. -/
def mode (host : SessionHost) (setup : SessionSetup) : CommandMode :=
  if setup.isShell then .shell host.user.shell else .exec host.user.shell setup.command

/-- The command that `run_piped` or `run_pty` spawns. -/
def command (host : SessionHost) (setup : SessionSetup) : Command where
  program := (host.mode setup).program
  arg0 := (host.mode setup).argv0
  args := (host.mode setup).args
  env := Environment.buildEnv host.environment host.user setup.termType setup.clientEnv
  cwd := if host.homeIsDir then host.user.home else [47]
  pty := setup.pty

/-- What is sent in front of the output. -/
def greeting (host : SessionHost) (setup : SessionSetup) : List WriterOp :=
  if setup.isShell && setup.pty.isSome then sendMotd host.hushlogin host.motd else []

end SessionHost

/-! ## The process

A process is known by what it is going to write and how it is going to end. What its relay has
done by then is part of the state. -/

/-- A process that has been spawned: what it is going to write, how it is going to end, and the
relay of its output. The standard error of a process with a terminal is its terminal. -/
structure Process where
  /-- What was started. -/
  command : Command
  /-- All that it writes to its standard output, or to its terminal. -/
  out : List UInt8
  /-- All that it writes to its standard error. -/
  err : List UInt8
  /-- How it ends. -/
  status : ExitStatus
  /-- The relay of its output. -/
  relay : OutputRelay

/-- How the process reads its input. -/
def Process.mode (p : Process) : InputRelay.Mode := if p.command.pty.isSome then .pty else .piped

/-- Spawn the command. -/
def SessionHost.spawn (host : SessionHost) (setup : SessionSetup) (out err : List UInt8)
    (status : ExitStatus) : Process :=
  if setup.pty.isSome then ⟨host.command setup, out, [], status, (runPty out status).init⟩
  else ⟨host.command setup, out, err, status, (runPiped out err status).init⟩

/-! ## In front of the output

The message of the day is one message of data at most, and for everything that counts output it
is output. -/

namespace SessionHost

/-- The message of the day, if it is shown. -/
def message (host : SessionHost) (setup : SessionSetup) : List UInt8 :=
  if setup.isShell && setup.pty.isSome && !host.hushlogin then host.motd.getD [] else []

/-- The messages in front of the output. -/
def opening (host : SessionHost) (setup : SessionSetup) : List ChannelMessage :=
  if host.message setup = [] then [] else [.data (host.message setup)]

/-- It is short enough for one message. -/
theorem message_lt (host : SessionHost) (setup : SessionSetup) :
    (host.message setup).length < 2 ^ 62 := by
  rw [message]
  split
  · cases hmotd : host.motd with
    | none => decide
    | some data => exact host.motd_lt data hmotd
  · decide

/-- What is written is this message, or nothing. -/
theorem greeting_sent (host : SessionHost) (setup : SessionSetup) :
    ∃ messages, WriterOp.performAll (host.greeting setup) = some messages ∧
      messages.flatten = ChannelMessage.stream (host.opening setup) := by
  have hgreeting : host.greeting setup =
      if host.message setup = [] then [] else [.data (host.message setup)] := by
    rw [greeting, message, sendMotd.eq_def]
    cases host.hushlogin with
    | true => simp
    | false => cases host.motd with
      | none => simp
      | some data => by_cases hlogin : (setup.isShell && setup.pty.isSome) = true <;> simp [hlogin]
  rw [hgreeting, opening]
  split
  · exact ⟨[], rfl, rfl⟩
  · have hdata : SshChannelWriter.data (host.message setup) = some _ :=
      ChannelMessage.write_eq (m := .data (host.message setup)) (host.message_lt setup)
    refine ⟨[(ChannelMessage.data (host.message setup)).head ++ host.message setup], ?_, ?_⟩
    · simp [WriterOp.performAll, WriterOp.perform, hdata, ChannelMessage.body]
    · simp [ChannelMessage.body]

/-- It is a message like those of the relay. -/
theorem opening_relay (host : SessionHost) (setup : SessionSetup) (status : ExitStatus) :
    ∀ m ∈ host.opening setup, OutputRelay.FromRelay status m := by
  rw [opening]
  split
  · exact List.forall_mem_nil _
  · exact List.forall_mem_singleton.mpr (.data (host.message_lt setup))

/-- It counts as output, … -/
theorem dataOf_opening (host : SessionHost) (setup : SessionSetup) :
    ChannelMessage.dataOf (host.opening setup) = host.message setup := by
  rw [opening]
  split
  · rename_i hnil
    rw [hnil]
    rfl
  · exact List.append_nil _

/-- … not as errors, … -/
theorem extendedDataOf_opening (host : SessionHost) (setup : SessionSetup) :
    ChannelMessage.extendedDataOf (host.opening setup) = [] := by
  rw [opening]
  split <;> rfl

/-- … and says nothing about the exit. -/
theorem noticesOf_opening (host : SessionHost) (setup : SessionSetup) :
    OutputRelay.noticesOf (host.opening setup) = [] := by
  rw [opening]
  split <;> rfl

end SessionHost

end Dssh
