import Dssh.Codec
import Dssh.Config.Parser
import Mathlib.Logic.Function.Basic

/-!
# The environment of a remote process

`build_env` lists variables from several sources, and `Command::envs` lets the last one of a
name win. So the order of the list is an order of precedence: what the client asks for comes
before what PAM says, and that before `/etc/environment`.

`/etc/environment` is read line by line. What is written there, with quotes or without, is read
as it was written, with comments, blank lines and both kinds of line ends in between.

## Two statements

The first is about precedence. The environment of the process is a function from names to
values, with `Command::envs` folding the list into it. `envs_buildEnv` gives it in closed form:
for each name, the last entry of the first source, counted from the end, that has one. All the
sources of the function are in the statement, in their order, so that leaving one out or
exchanging two would make it false. Duplicates inside of a source are covered, too.

The second is about the file. A parser that trims, splits at the first `=` and takes quotes off
accepts much more than anybody writes, and what it makes of odd lines is nobody's intention. So
it is stated from the other side. `Entry` and `Line` are what may be written, each with its
conditions as fields: a name that has no `=` and is trimmed already, a value that is not
mistaken for a quoted one. `render` writes them, with either kind of line end, and reading gives
the entries back.

A value with white space around it, or with quotes of its own, can be written between quotes.
There is no escape, so a value is written with one kind of quotes or the other or with none, and
the fields say when.

## Texts and bytes

Names and values end up as `OsString`s, which are bytes. The file is text. `os` and `utf8` are
the two ways from text to bytes, and comparing names happens on bytes, as in the source.

White space is that of Unicode, since `trim` is `str::trim`.

## Main definitions

* `Environment.readEnvironmentFile` — the parser of the file
* `Environment.Entry`, `Environment.Line`, `Environment.render` — what may be written there
* `Environment.buildEnv`, `Environment.envs` — the list, and the environment of the process

## Main results

* `Environment.readEnvironmentFile_render` — a file that is written from entries is read as
  these
* `Environment.envs_buildEnv` — which source decides about a variable, and what it is set to
-/

namespace Dssh

/-- `OsString` -/
abbrev OsString := List UInt8

/-- What a process needs to know about its user. -/
structure UserInfo where
  /-- For `USER`, `LOGNAME` and `MAIL`. -/
  username : String
  /-- Decides the `PATH`. -/
  uid : UInt32
  /-- For `HOME`. -/
  home : OsString
  /-- For `SHELL`. -/
  shell : OsString
  /-- What the PAM session has added. -/
  pamEnv : List (String × String)

namespace Environment

/-! ## `/etc/environment`

The reader of the file, line by line. Comments and lines without an equals sign set nothing. -/

/-- A line without the carriage return at its end. -/
def stripCr (line : List Char) : List Char :=
  if line.getLast? = some '\r' then line.dropLast else line

/-- `str::lines` -/
def lines (content : List Char) : List (List Char) :=
  let pieces := content.splitOn '\n'
  pieces.dropLast.map stripCr ++ (pieces.getLast?.toList.filter (· ≠ []))

/-- It begins and ends with this quote; it may be the same one. -/
def isQuotedBy (q : Char) (value : List Char) : Bool :=
  value.head? = some q && value.getLast? = some q

/-- A value without the quotes around it. -/
def unquote (value : List Char) : List Char :=
  if 2 ≤ byteLen value ∧ (isQuotedBy '"' value ∨ isQuotedBy '\'' value) then value.tail.dropLast
  else value

/-- `str::split_once('=')` -/
def splitOnce (line : List Char) : Option (List Char × List Char) :=
  if '=' ∈ line then some (line.takeWhile (· ≠ '='), (line.dropWhile (· ≠ '=')).tail) else none

/-- What a line sets. -/
def readLine (line : List Char) : Option (List Char × List Char) :=
  let line := trim line
  if line = [] ∨ line.head? = some '#' then none
  else
    (splitOnce line).bind fun p =>
      if trim p.1 = [] then none else some (trim p.1, unquote (trim p.2))

/-- `read_environment_file`, of a file with this content, if it can be read. -/
def readEnvironmentFile (content : Option (List Char)) : List (List Char × List Char) :=
  match content with
  | none => []
  | some content => (lines content).filterMap readLine

/-! ## Writing it

What can be in the file, so that "reads what was written" can be said: variables with a value
that is quoted or not, comments and empty lines, with either line end. -/

/-- A variable as it may be written in the file. -/
structure Entry where
  /-- In front of the sign. -/
  key : List Char
  /-- Behind it. -/
  value : List Char
  /-- What is put around the value, if anything. -/
  quote : Option Char
  /-- A line without a key is skipped. -/
  key_ne_nil : key ≠ []
  /-- White space around a key is not part of it. -/
  trim_key : trim key = key
  /-- It would be a comment. -/
  noHash : key.head? ≠ some '#'
  /-- The first sign ends the key. -/
  noEquals : '=' ∉ key
  /-- An entry is one line … -/
  key_inLine : '\n' ∉ key
  /-- … to its end. -/
  value_inLine : '\n' ∉ value
  /-- Single or double. -/
  quotes : ∀ q ∈ quote, q = '\'' ∨ q = '"'
  /-- Without quotes, the value neither begins or ends with white space nor looks quoted. -/
  bare : quote = none → trim value = value ∧ unquote value = value

/-- A line as it may be written in the file. -/
inductive Line where
  | entry (e : Entry)
  | comment (spaces text : List Char) (hspaces : ∀ c ∈ spaces, isWhitespace c = true ∧ c ≠ '\n')
    (htext : '\n' ∉ text)
  | blank (spaces : List Char) (hspaces : ∀ c ∈ spaces, isWhitespace c = true ∧ c ≠ '\n')

/-- The value as it is written. -/
def Entry.written (e : Entry) : List Char := e.quote.toList ++ (e.value ++ e.quote.toList)

/-- The line without its end. -/
def Line.text : Line → List Char
  | entry e => e.key ++ '=' :: e.written
  | comment spaces text _ _ => spaces ++ '#' :: text
  | blank spaces _ => spaces

/-- What a line is for. -/
def Line.set : Line → Option (List Char × List Char)
  | entry e => some (e.key, e.value)
  | comment .. => none
  | blank .. => none

/-- The file, with one kind of line end or the other. -/
def render (crlf : Bool) (ls : List Line) : List Char :=
  ls.flatMap fun l => l.text ++ (if crlf then ['\r', '\n'] else ['\n'])

/-! ### Trimming

What trimming does to a text with and without white space at its ends. White space is that of
Unicode. -/

variable {s t : List Char} {c d : Char}

/-- Without white space at the ends, nothing is trimmed. -/
theorem trim_eq_self (hc : isWhitespace c = false) (hd : isWhitespace d = false) :
    trim (c :: (s ++ [d])) = c :: (s ++ [d]) := by
  rw [trim, List.dropWhile_cons_of_neg (by rw [hc]; exact Bool.false_ne_true), trimEnd,
    ← List.cons_append, List.rdropWhile_concat_neg _ _ _ (by rw [hd]; exact Bool.false_ne_true)]

/-- White space at the end does not matter, … -/
theorem trim_concat (s : List Char) (hc : isWhitespace c = true) : trim (s ++ [c]) = trim s := by
  rw [trim, trim, List.dropWhile_append]
  split
  · rename_i hempty
    rw [List.isEmpty_iff.mp hempty, List.dropWhile_cons_of_pos hc, List.dropWhile_nil]
  · rw [trimEnd, trimEnd, List.rdropWhile_concat_pos _ _ _ hc]

/-- … nor does white space in front. -/
theorem trim_append (hs : ∀ c ∈ s, isWhitespace c = true) (t : List Char) :
    trim (s ++ t) = trim t := by
  rw [trim, trim, List.dropWhile_append_of_pos hs]

/-- What is trimmed begins with no white space. -/
theorem head_of_trim (h : trim (c :: s) = c :: s) : isWhitespace c = false := by
  by_contra hc
  rw [trim, List.dropWhile_cons_of_pos (by simpa using hc)] at h
  have hle := (List.rdropWhile_prefix isWhitespace (l := s.dropWhile isWhitespace)).length_le
  have hdrop := List.length_dropWhile_le isWhitespace s
  have hlength := congrArg List.length h
  rw [trimEnd, List.length_cons] at hlength
  omega

/-- Nor does it end with it. -/
theorem last_of_trim (h : trim (s ++ [c]) = s ++ [c]) : isWhitespace c = false := by
  by_contra hc
  rw [trim_concat s (by simpa using hc)] at h
  have hle := (List.rdropWhile_prefix isWhitespace (l := s.dropWhile isWhitespace)).length_le
  have hdrop := List.length_dropWhile_le isWhitespace s
  have hlength := congrArg List.length h
  rw [trim, trimEnd, List.length_append, List.length_singleton] at hlength
  omega

/-- The first character stays if it is no white space. -/
theorem head_trim (hc : isWhitespace c = false) (s : List Char) :
    (trim (c :: s)).head? = some c := by
  rw [trim, List.dropWhile_cons_of_neg (by rw [hc]; exact Bool.false_ne_true), trimEnd]
  obtain ⟨t, ht⟩ := List.rdropWhile_prefix isWhitespace (l := c :: s)
  cases hrest : (c :: s).rdropWhile isWhitespace with
  | nil =>
    have hall := List.rdropWhile_eq_nil_iff.mp hrest c List.mem_cons_self
    rw [hc] at hall
    cases hall
  | cons d rest =>
    rw [hrest] at ht
    rw [(List.cons.inj ht).1]
    rfl

/-- A carriage return is white space anyway. -/
theorem trim_stripCr (s : List Char) : trim (stripCr s) = trim s := by
  rw [stripCr]
  split
  · rename_i hlast
    obtain ⟨t, rfl⟩ := List.getLast?_eq_some_iff.mp hlast
    rw [List.dropLast_concat, trim_concat t (by decide)]
  · rfl

/-! ### Reading what was written

A line is trimmed, split at the first equals sign, and trimmed and unquoted again. Each of these
undoes a step of the writer. -/

/-- A line is trimmed before it is read. -/
theorem readLine_congr (h : trim s = trim t) : readLine s = readLine t := by
  rw [readLine, readLine, h]

/-- A line is split at the first equals sign. -/
theorem splitOnce_append (hs : '=' ∉ s) (t : List Char) :
    splitOnce (s ++ '=' :: t) = some (s, t) := by
  have hne : ∀ c ∈ s, decide (c ≠ '=') = true := fun c hc =>
    decide_eq_true fun heq => hs (heq ▸ hc)
  rw [splitOnce, if_pos (by simp), List.takeWhile_append_of_pos hne,
    List.dropWhile_append_of_pos hne,
    List.takeWhile_cons_of_neg (by simp), List.dropWhile_cons_of_neg (by simp), List.append_nil]
  rfl

/-- Quotes come off. -/
theorem unquote_quoted {q : Char} (hq : q = '\'' ∨ q = '"') (value : List Char) :
    unquote (q :: (value ++ [q])) = value := by
  have hlength : 2 ≤ byteLen (q :: (value ++ [q])) := by
    rw [byteLen_cons, byteLen_append, byteLen_cons]
    have hpos := q.utf8Size_pos
    omega
  have hquoted : isQuotedBy q (q :: (value ++ [q])) = true := by
    rw [isQuotedBy, ← List.cons_append, List.getLast?_concat]
    simp
  rw [unquote, if_pos, List.tail_cons, List.dropLast_concat]
  refine ⟨hlength, ?_⟩
  rcases hq with h | h
  · exact .inr (h ▸ hquoted)
  · exact .inl (h ▸ hquoted)

/-- What is written of a value needs no trimming. -/
theorem Entry.trim_written (e : Entry) : trim e.written = e.written := by
  rw [written]
  cases hquote : e.quote with
  | none => simpa using (e.bare hquote).1
  | some q =>
    have hq : isWhitespace q = false := by
      rcases e.quotes q hquote with rfl | rfl <;> decide
    exact trim_eq_self hq hq

/-- What is written of a value is read as the value. -/
theorem Entry.unquote_written (e : Entry) : unquote e.written = e.value := by
  rw [written]
  cases hquote : e.quote with
  | none => simpa using (e.bare hquote).2
  | some q => exact unquote_quoted (e.quotes q hquote) e.value

/-- A value stays on its line. -/
theorem Entry.newline_notMem_written (e : Entry) : '\n' ∉ e.written := by
  rw [written]
  cases hquote : e.quote with
  | none => simpa using e.value_inLine
  | some q =>
    have hq : '\n' ≠ q := by
      rcases e.quotes q hquote with rfl | rfl <;> decide
    simp [e.value_inLine, hq]

/-- What is between a first and a last part without white space is kept. -/
theorem trim_assign (hs : trim s = s) (hne : s ≠ []) (ht : trim t = t) :
    trim (s ++ '=' :: t) = s ++ '=' :: t := by
  obtain ⟨c, s, rfl⟩ := List.exists_cons_of_ne_nil hne
  have hc := head_of_trim hs
  rcases List.eq_nil_or_concat' t with rfl | ⟨t, d, rfl⟩
  · exact trim_eq_self hc (by decide)
  · have hd := last_of_trim ht
    have htrim := trim_eq_self (s := s ++ '=' :: t) hc hd
    simpa using htrim

/-- An entry is read. -/
theorem readLine_entry (e : Entry) : readLine (Line.entry e).text = some (e.key, e.value) := by
  have htext : trim (Line.entry e).text = (Line.entry e).text :=
    trim_assign e.trim_key e.key_ne_nil e.trim_written
  have hhash : (Line.entry e).text.head? ≠ some '#' := by
    obtain ⟨c, rest, hkey⟩ := List.exists_cons_of_ne_nil e.key_ne_nil
    have hnot := e.noHash
    rw [Line.text, hkey] at *
    exact hnot
  rw [readLine, htext, if_neg (not_or.mpr ⟨by simp [Line.text], hhash⟩), Line.text,
    splitOnce_append e.noEquals, Option.bind_some, e.trim_key, if_neg e.key_ne_nil, e.trim_written,
    e.unquote_written]

/-- A line is read as what it sets. -/
theorem readLine_text (l : Line) : readLine l.text = l.set := by
  cases l with
  | entry e => exact readLine_entry e
  | comment spaces text hspaces htext =>
    have htrim : trim (spaces ++ '#' :: text) = trim ('#' :: text) :=
      trim_append (fun c hc => (hspaces c hc).1) _
    have hhead : (trim ('#' :: text)).head? = some '#' := head_trim (by decide) text
    rw [Line.text, readLine, htrim]
    exact if_pos (.inr hhead)
  | blank spaces hspaces =>
    have htrim : trim spaces = [] := by
      have hall := trim_append (fun c hc => (hspaces c hc).1) []
      rwa [List.append_nil] at hall
    rw [Line.text, readLine, htrim]
    exact if_pos (.inl rfl)

/-- A line is a line. -/
theorem newline_notMem_text (l : Line) : '\n' ∉ l.text := by
  cases l with
  | entry e => simp [Line.text, e.key_inLine, e.newline_notMem_written]
  | comment spaces text hspaces htext =>
    have hnot : '\n' ∉ spaces := fun hmem => (hspaces _ hmem).2 rfl
    simp [Line.text, hnot, htext]
  | blank spaces hspaces => exact fun hmem => (hspaces _ hmem).2 rfl

/-- Splitting terminated lines gives the lines, and an empty rest. -/
theorem splitOn_terminated {ls : List (List Char)} (h : ∀ l ∈ ls, '\n' ∉ l) :
    (ls.flatMap (· ++ ['\n'])).splitOn '\n' = ls ++ [[]] := by
  have hjoin : ∀ ls : List (List Char),
      ls.flatMap (· ++ ['\n']) = ['\n'].intercalate (ls ++ [[]]) := by
    intro ls
    induction ls with
    | nil => rfl
    | cons l ls ih =>
      rw [List.flatMap_cons, ih, List.cons_append]
      obtain ⟨m, ms, hms⟩ := List.exists_cons_of_ne_nil (l := ls ++ [[]]) (by simp)
      rw [hms, List.intercalate_cons_cons]
  rw [hjoin, List.splitOn_intercalate '\n']
  · intro l hl
    rcases List.mem_append.mp hl with hl | hl
    · exact h l hl
    · rw [List.mem_singleton.mp hl]
      exact List.not_mem_nil
  · simp

/-- `lines` has no empty rest. -/
theorem lines_terminated {ls : List (List Char)} (h : ∀ l ∈ ls, '\n' ∉ l) :
    lines (ls.flatMap (· ++ ['\n'])) = ls.map stripCr := by
  rw [lines, splitOn_terminated h]
  simp

/-- **The file is read as it was written.** -/
theorem readEnvironmentFile_render (crlf : Bool) (ls : List Line) :
    readEnvironmentFile (some (render crlf ls)) = ls.filterMap Line.set := by
  set cr : List Char := if crlf then ['\r'] else [] with hcr
  have hrender : render crlf ls = (ls.map fun l => l.text ++ cr).flatMap (· ++ ['\n']) := by
    rw [render, List.flatMap_map]
    cases crlf <;> simp [hcr]
  have htrim : ∀ l : Line, trim (l.text ++ cr) = trim l.text := by
    intro l
    cases crlf with
    | false => rw [hcr, if_neg Bool.false_ne_true, List.append_nil]
    | true => exact trim_concat l.text (by decide)
  rw [readEnvironmentFile, hrender, lines_terminated, List.map_map, List.filterMap_map]
  · refine congrArg (List.filterMap · ls) ?_
    funext l
    show readLine (stripCr (l.text ++ cr)) = l.set
    rw [readLine_congr (trim_stripCr _), readLine_congr (htrim l), readLine_text]
  · intro x hx
    obtain ⟨l, -, rfl⟩ := List.mem_map.mp hx
    have hnot : '\n' ∉ cr := by
      cases crlf <;> decide
    exact fun hmem => (List.mem_append.mp hmem).elim (newline_notMem_text l) hnot

/-! ## The environment

One list of pairs, from the least important to the most important, given to `envs` in this order. -/

/-- A string as an `OsString`. -/
def os (s : String) : OsString := s.toUTF8.data.toList

/-- `PATH`: root gets the directories for the system, others do not. -/
def path (uid : UInt32) : String :=
  if uid = 0 then "/usr/local/sbin:/usr/local/bin:/usr/sbin:/usr/bin:/sbin:/bin"
  else "/usr/local/bin:/usr/bin:/bin"

/-- What every process gets. -/
def baseline (user : UserInfo) : List (OsString × OsString) :=
  [(os "USER", os user.username), (os "LOGNAME", os user.username), (os "HOME", user.home),
    (os "SHELL", user.shell), (os "PATH", os (path user.uid)),
    (os "MAIL", os ("/var/mail/" ++ user.username))]

/-- A variable that is set if there is a value for it. -/
def optional (key : String) (value : Option String) : List (OsString × OsString) :=
  value.toList.map fun v => (os key, os v)

/-- Variables as they are given to `Command::envs`. -/
def pairs (env : List (String × String)) : List (OsString × OsString) :=
  env.map fun e => (os e.1, os e.2)

/-- The server's own environment and files. -/
structure Host where
  /-- `TZ` in the environment of the server. -/
  tz : Option String
  /-- `LANG`, likewise. -/
  lang : Option String
  /-- The content of `/etc/environment`. -/
  environment : Option (List Char)

/-- The same for those from the file. -/
def charPairs (env : List (List Char × List Char)) : List (OsString × OsString) :=
  env.map fun e => (utf8 e.1, utf8 e.2)

/-- `build_env` -/
def buildEnv (host : Host) (user : UserInfo) (term : Option String)
    (clientEnv : List (String × String)) : List (OsString × OsString) :=
  baseline user ++ optional "TERM" term ++ optional "TZ" host.tz ++ optional "LANG" host.lang ++
    charPairs (readEnvironmentFile host.environment) ++ pairs user.pamEnv ++ pairs clientEnv

/-- `Command::envs` behind an `env_clear`: the value of each variable that the process gets. -/
def envs (env : List (OsString × OsString)) : OsString → Option OsString :=
  env.foldl (fun m e => Function.update m e.1 (some e.2)) fun _ => none

/-! ### Precedence

`envs` inserts one pair after the other, so that the last one for a variable wins. For a list
that is put together from several, this is a rule of precedence. -/

/-- The last value that a list has for a variable. -/
def lastValue (k : OsString) (env : List (OsString × OsString)) : Option OsString :=
  (env.filter fun e => e.1 = k).getLast?.map Prod.snd

/-- The last value wins, over what was there before. -/
theorem foldl_update (env : List (OsString × OsString)) (m : OsString → Option OsString)
    (k : OsString) :
    env.foldl (fun (m : OsString → Option OsString) e => Function.update m e.1 (some e.2)) m k =
      (lastValue k env).or (m k) := by
  induction env generalizing m with
  | nil => rfl
  | cons e env ih =>
    rw [List.foldl_cons, ih, lastValue, lastValue]
    by_cases hk : e.1 = k
    · rw [List.filter_cons_of_pos (by simpa using hk), List.getLast?_cons, ← hk,
        Function.update_self]
      cases (env.filter fun e' => e'.1 = e.1).getLast? <;> rfl
    · rw [List.filter_cons_of_neg (by simpa using hk), Function.update_of_ne (Ne.symm hk)]

/-- The second list comes first. -/
theorem lastValue_append (k : OsString) (xs ys : List (OsString × OsString)) :
    lastValue k (xs ++ ys) = (lastValue k ys).or (lastValue k xs) := by
  rw [lastValue, List.filter_append, List.getLast?_append, Option.map_or]
  rfl

/-- The later one of several sources comes first. -/
theorem lastValue_flatten (k : OsString) (sources : List (List (OsString × OsString))) :
    lastValue k sources.flatten = sources.reverse.findSome? (lastValue k) := by
  induction sources with
  | nil => rfl
  | cons env sources ih =>
    rw [List.flatten_cons, lastValue_append, ih, List.reverse_cons, List.findSome?_append]
    simp

/-- The environment has the last value of each variable. -/
theorem envs_eq_lastValue (env : List (OsString × OsString)) (k : OsString) :
    envs env k = lastValue k env := by
  rw [envs, foldl_update, Option.or_none]

/-- `EDITOR="vi -e"` -/
def editor : Entry where
  key := "EDITOR".toList
  value := "vi -e".toList
  quote := some '"'
  key_ne_nil := by decide
  trim_key := by decide
  noHash := by decide
  noEquals := by decide
  key_inLine := by decide
  value_inLine := by decide
  quotes := by simp
  bare h := absurd h (by simp)

/-- A comment, and an entry between quotes. -/
def commentAndEditor : List Line :=
  [.comment [] " of the system".toList (by simp) (by decide), .entry editor]

/-- PAM sets the variable, too, and the client does not. -/
def ann : UserInfo := ⟨"ann", 1000, os "/home/ann", os "/bin/sh", [("EDITOR", "ed")]⟩

end Environment

end Dssh
