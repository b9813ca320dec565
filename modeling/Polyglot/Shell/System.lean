import Polyglot.Launch
import Polyglot.Shell.Run

/-!
# A plain Linux system

The files and the programs that are there beside the worker: the shell, and its commands as programs of
their own. Nothing but the outermost layer of a program depends on them.
-/

namespace Polyglot

namespace FileTree

/-- The directories of the system that are of interest even when empty. -/
def systemDirectories : List (List String) :=
  [["boot"], ["dev"], ["dev", "shm"], ["etc"], ["home"], ["lib"], ["media"], ["mnt"], ["opt"],
    ["proc"], ["proc", "self"], ["proc", "self", "fd"], ["proc", "1"], ["root"], ["run"], ["sbin"],
    ["srv"], ["sys"], ["tmp"], ["usr"], ["usr", "bin"], ["usr", "include"], ["usr", "lib"],
    ["usr", "local"], ["usr", "local", "bin"], ["usr", "local", "lib"], ["usr", "sbin"],
    ["usr", "share"], ["usr", "src"], ["var"], ["var", "cache"], ["var", "lib"], ["var", "log"],
    ["var", "tmp"]]

/-- The texts of the system. -/
def systemTexts : List (List String × String) :=
  [(["etc", "passwd"], "root:x:0:0:root:/root:/bin/sh\n"), (["etc", "group"], "root:x:0:\n"),
    (["etc", "hosts"], "127.0.0.1\tlocalhost\n"), (["etc", "hostname"], "localhost\n"),
    (["etc", "fstab"], "# none\n"), (["etc", "shadow"], "root:*:0:0:99999:7:::\n"),
    (["etc", "resolv.conf"], "# none\n"), (["etc", "os-release"], "ID=linux\n"),
    (["dev", "null"], ""), (["proc", "self", "stat"], "1 (self) R\n"),
    (["proc", "version"], "Linux\n"), (["proc", "cpuinfo"], "processor\t: 0\n"),
    (["proc", "meminfo"], "MemTotal: 1 kB\n")]

/-- The programs of the system, each in both of its directories. -/
def systemPrograms : List String :=
  ["sh", "bash", "dash", "cat", "cp", "date", "echo", "env", "false", "grep", "head", "ls", "mkdir",
    "mv", "printf", "pwd", "rm", "sed", "seq", "sleep", "sort", "tail", "test", "touch", "tr", "true",
    "uname", "wc", "yes"]

/-- The files that any Linux system has, and an empty current directory. -/
def system : FileTree where
  current := ["tmp", "work"]
  files :=
    systemTexts.map (fun (place, content) => (place, .text content)) ++
      systemPrograms.flatMap (fun name =>
        [(["bin", name], .program name), (["usr", "bin", name], .program name)]) ++
      systemDirectories.map (fun place => (place, .directory))

end FileTree

/-- The shell and its commands as programs. -/
def Shell.programs : Launch.Programs := fun tree e name =>
  if name = "sh" ∨ name = "dash" ∨ name = "bash" then session tree e.executable e.args e.env
  else commandSession tree name e.args e.env

end Polyglot
