import Dssh.Lib.Base64
import Dssh.Lib.Utf8

/-!
# Basic authentication

The client writes `Basic` and the username and the password in base64, with a colon in between.
The server takes what is in front of the first colon for the username. Neither has a way to
write a colon that belongs to the username.

`encode_basic_auth` and `parse_authorization_header` are the two functions. They are written
independently, in different modules, and are used on different machines; that they agree is what
lets a user log in under the name that was typed.

## Base64 is a parameter

The engine belongs to another crate. `Base64Engine` is any pair of functions, and `Standard`
states what the two functions rely on: decoding inverts encoding, and the characters of an
encoding may be in a header. Nothing else about base64 matters for the agreement, not even that
it is base64. `standardEngine` is the library's own implementation, and shows that the
assumptions can be met.

## What can go wrong

`HeaderValue::from_str` is followed by an `expect`. So `encodeBasicAuth` returns an option, with
`none` for the panic; that there is none is a part of `basicAuth_iff` and not an assumption. The
password may have any characters, colons included. A username with a colon is encoded without
complaint, and comes out split at the wrong place; the header of `"a:b"` and `"c"` is the one of
`"a"` and `"b:c"`, so no server could do better. The client does not reject such names.

The server's errors are in the order of its checks: the separator, the scheme (in any case), an
empty rest, base64, UTF-8, the colon.

## What is absent

The scheme `Certificate`, which has no header, beyond its constructor. How a header gets from
one side to the other, and the formatting of credentials for logs, which hides the password.

## Main definitions

* `Base64Engine`, `Base64Engine.Standard` — the engine, and what is known of the standard one
* `encodeBasicAuth` — `encode_basic_auth`
* `parseAuthorizationHeader` — `parse_authorization_header`

## Main results

* `parseAuthorizationHeader_encode` — what the server makes of a header of the client
* `basicAuth_iff` — for which usernames this is what the client was given
-/

namespace Dssh

/-! ## The engine

What the two functions use of base64 is one structure with an encoder and a decoder, and what is
known of the standard one is a predicate on it. So the results hold for any engine that is
documented like this. -/

/-- An engine of base64, of which it is not said here how it encodes. -/
structure Base64Engine (DecodeError : Type) where
  /-- The characters for some bytes. -/
  encode : List UInt8 → List Char
  /-- The bytes for some characters, if they are well formed. -/
  decode : List Char → Except DecodeError (List UInt8)

/-- A character that may be in the value of a header: visible ASCII, a blank or a tab. -/
def isHeaderChar (c : Char) : Bool := (32 ≤ c.toNat && c.toNat < 127) || c == '\t'

/-- What is known of the standard engine: decoding inverts encoding, no bytes are no characters, and
the characters may be in a header. -/
structure Base64Engine.Standard {DecodeError : Type}
    (engine : Base64Engine DecodeError) : Prop where
  /-- What has been encoded is decoded. -/
  decode_encode : ∀ bs, engine.decode (engine.encode bs) = .ok bs
  /-- No bytes are no characters. -/
  encode_nil : engine.encode [] = []
  /-- Encodings may be in a header. -/
  isHeaderChar_of_mem : ∀ bs, ∀ c ∈ engine.encode bs, isHeaderChar c = true

/-! ## The two functions

`split_once` and `from_utf8` are the standard library's, on lists of characters. The checks are
made in the order of the source: the scheme, then the engine, then UTF-8, then the colon. -/

/-- What a client shows for itself. -/
inductive AuthCredential where
  | basic (username password : List Char)
  | certificate
  deriving DecidableEq, Repr

/-- What can be wrong with a header, in the order of the checks. -/
inductive ParseAuthError (DecodeError : Type) where
  | missingSchemeSeparator
  | unsupportedAuthScheme (scheme : List Char)
  | emptyCredentials
  | invalidBase64Credentials (source : DecodeError)
  | credentialsNotUtf8 (bytes : List UInt8)
  | missingCredentialSeparator
  deriving DecidableEq, Repr

/-- `str::split_once` -/
def splitOnce (d : Char) : List Char → Option (List Char × List Char)
  | [] => none
  | c :: s => if c = d then some ([], s) else (splitOnce d s).map fun r => (c :: r.1, r.2)

/-- `String::from_utf8` -/
def fromUtf8 (bs : List UInt8) : Option (List Char) :=
  (String.fromUTF8? bs.toByteArray).map String.toList

/-- The value of a header. -/
structure HeaderValue where
  /-- Its characters. -/
  text : List Char
  /-- All of them may be in a header. -/
  isHeader : text.all isHeaderChar = true

/-- A text as the value of a header, if it may be one. -/
def HeaderValue.fromStr (text : List Char) : Option HeaderValue :=
  if h : text.all isHeaderChar = true then some ⟨text, h⟩ else none

section

variable {DecodeError : Type} (engine : Base64Engine DecodeError)

/-- `none` where the header would panic. -/
def encodeBasicAuth (username password : List Char) : Option HeaderValue :=
  let encoded := engine.encode (utf8 (username ++ ':' :: password))
  HeaderValue.fromStr ("Basic ".toList ++ encoded)

/-- What the server makes of a header. -/
def parseAuthorizationHeader (headerValue : List Char) :
    Except (ParseAuthError DecodeError) AuthCredential :=
  match splitOnce ' ' headerValue with
  | none => .error .missingSchemeSeparator
  | some (scheme, credentials) =>
    if scheme.map Char.toLower ≠ "basic".toList then .error (.unsupportedAuthScheme scheme)
    else if credentials.isEmpty then .error .emptyCredentials
    else
      match engine.decode credentials with
      | .error source => .error (.invalidBase64Credentials source)
      | .ok decodedBytes =>
        match fromUtf8 decodedBytes with
        | none => .error (.credentialsNotUtf8 decodedBytes)
        | some decoded =>
          match splitOnce ':' decoded with
          | none => .error .missingCredentialSeparator
          | some (username, password) => .ok (.basic username password)

end

/-! ## Cutting a text

The text is cut at the first occurrence, so that what is in front of the cut does not contain the
character, and what is behind it may. -/

variable {d : Char} {s x y : List Char}

/-- It cuts at the first occurrence. -/
theorem splitOnce_append (hx : d ∉ x) (y : List Char) :
    splitOnce d (x ++ d :: y) = some (x, y) := by
  induction x with
  | nil => exact if_pos rfl
  | cons c x ih =>
    rw [List.mem_cons, not_or] at hx
    rw [List.cons_append, splitOnce, if_neg (Ne.symm hx.1), ih hx.2]
    rfl

/-- The bytes of a text are those of that text. -/
theorem fromUtf8_utf8 (t : List Char) : fromUtf8 (utf8 t) = some t := by
  have hbytes : (utf8 t).toByteArray = (String.ofList t).toByteArray := by
    rw [String.toByteArray_ofList]
    rfl
  rw [fromUtf8, hbytes, String.fromUTF8?, dif_pos (String.ofList t).isValidUTF8]
  exact congrArg some String.toList_ofList

/-! ## Headers

What the client writes is a header, and the server undoes it step by step. Only the last step
loses something: a username may contain a colon, and then the cut is in the wrong place. -/

section

variable {DecodeError : Type} {engine : Base64Engine DecodeError}
  {username password username' password' : List Char}

/-- Some bytes are some characters. -/
theorem Base64Engine.Standard.encode_ne_nil (he : engine.Standard) {bs : List UInt8}
    (hbs : bs ≠ []) : engine.encode bs ≠ [] := by
  intro hnil
  have hdecode := he.decode_encode bs
  rw [hnil, ← he.encode_nil, he.decode_encode] at hdecode
  exact hbs (Except.ok.inj hdecode).symm

/-- **The client does not panic**, whatever it is given. -/
theorem exists_header (he : engine.Standard) (username password : List Char) :
    ∃ header, encodeBasicAuth engine username password = some header ∧
      header.text = "Basic ".toList ++ engine.encode (utf8 (username ++ ':' :: password)) := by
  have hheader : ("Basic ".toList ++ engine.encode (utf8 (username ++ ':' :: password))).all
      isHeaderChar = true := by
    rw [List.all_append, Bool.and_eq_true]
    exact ⟨by decide, List.all_eq_true.mpr (he.isHeaderChar_of_mem _)⟩
  exact ⟨⟨_, hheader⟩, dif_pos hheader, rfl⟩

/-- The server finds the first colon. -/
theorem parseAuthorizationHeader_encode (he : engine.Standard) (husername : ':' ∉ username)
    (password : List Char) : parseAuthorizationHeader engine
      ("Basic ".toList ++ engine.encode (utf8 (username ++ ':' :: password))) =
        .ok (.basic username password) := by
  have hscheme : "Basic ".toList ++ engine.encode (utf8 (username ++ ':' :: password)) =
      "Basic".toList ++ ' ' :: engine.encode (utf8 (username ++ ':' :: password)) := rfl
  have hempty : (engine.encode (utf8 (username ++ ':' :: password))).isEmpty = false := by
    rw [List.isEmpty_eq_false_iff]
    refine he.encode_ne_nil fun hnil => ?_
    have hlength := length_utf8 (username ++ ':' :: password)
    rw [hnil, byteLen_append, byteLen_cons] at hlength
    have hpos := ':'.utf8Size_pos
    simp only [List.length_nil] at hlength
    omega
  have hlower : "Basic".toList.map Char.toLower = "basic".toList := by decide
  rw [hscheme, parseAuthorizationHeader, splitOnce_append (by decide)]
  simp only [hlower, ne_eq, not_true_eq_false, if_false, hempty, Bool.false_eq_true,
    he.decode_encode, fromUtf8_utf8, splitOnce_append husername]

/-- Without colons in the usernames, the first colon is the one in between. -/
theorem append_colon_inj (husername : ':' ∉ username) (husername' : ':' ∉ username')
    (h : username ++ ':' :: password = username' ++ ':' :: password') :
    username = username' ∧ password = password' := by
  have hsplit := splitOnce_append husername password
  rw [h, splitOnce_append husername'] at hsplit
  obtain ⟨hname, hrest⟩ := Prod.mk.inj (Option.some.inj hsplit)
  exact ⟨hname.symm, hrest.symm⟩

/-- Different texts have different encodings. -/
theorem encode_inj (he : engine.Standard) {s t : List Char}
    (h : engine.encode (utf8 s) = engine.encode (utf8 t)) : s = t := by
  have hdecode := he.decode_encode (utf8 s)
  rw [h, he.decode_encode] at hdecode
  have hutf8 := fromUtf8_utf8 s
  rw [← Except.ok.inj hdecode, fromUtf8_utf8] at hutf8
  exact (Option.some.inj hutf8).symm

/-- **Basic authentication.** The client always makes a header, and the server takes for the
username what is in front of the first colon. This is what the client was given exactly if its
username has no colon; and such usernames share a header only if they and their passwords are the
same. -/
theorem basicAuth_iff (he : engine.Standard) (username password : List Char) :
    ∃ header, encodeBasicAuth engine username password = some header ∧
      (∃ name rest, username ++ ':' :: password = name ++ ':' :: rest ∧ ':' ∉ name ∧
        parseAuthorizationHeader engine header.text = .ok (.basic name rest)) ∧
      (parseAuthorizationHeader engine header.text = .ok (.basic username password) ↔
        ':' ∉ username) ∧
      ∀ username' password', ':' ∉ username → ':' ∉ username' →
        encodeBasicAuth engine username' password' = some header →
        username' = username ∧ password' = password := by
  obtain ⟨header, hencode, htext⟩ := exists_header he username password
  obtain ⟨name, rest, hsplit, hname⟩ :=
    List.eq_append_cons_of_mem (List.mem_append_right username (List.mem_cons_self : ':' ∈ _))
  have hparse := parseAuthorizationHeader_encode he hname rest
  rw [← hsplit, ← htext] at hparse
  refine ⟨header, hencode, ⟨name, rest, hsplit, hname, hparse⟩, ⟨fun h => ?_, fun h => ?_⟩, ?_⟩
  · rw [hparse] at h
    obtain ⟨rfl, -⟩ := AuthCredential.basic.inj (Except.ok.inj h)
    exact hname
  · obtain ⟨rfl, rfl⟩ := append_colon_inj h hname hsplit
    exact hparse
  · intro username' password' h h' hencode'
    obtain ⟨header', hencode'', htext'⟩ := exists_header he username' password'
    obtain rfl : header' = header := Option.some.inj (hencode''.symm.trans hencode')
    have hsame := encode_inj he (List.append_cancel_left (htext'.symm.trans htext))
    exact append_colon_inj h' h hsame

end

/-! ## The standard engine

The facts about the engine have an instance, so they do not contradict each other, and the
theorem can be applied to concrete names. -/

/-- `STANDARD`, without the reasons of its errors. -/
def standardEngine : Base64Engine Unit where
  encode := Base64.encode
  decode cs := (Base64.decode cs).elim (.error ()) .ok

/-- It is what the two functions rely on. -/
theorem standardEngine_standard : standardEngine.Standard where
  decode_encode bs := by
    show (Base64.decode (Base64.encode bs)).elim _ _ = _
    rw [Base64.decode_encode]
    rfl
  encode_nil := rfl
  isHeaderChar_of_mem bs c hc := by
    have hall : Base64.alphabet.all isHeaderChar = true := by decide
    obtain hc | rfl := Base64.mem_encode hc
    · exact List.all_eq_true.mp hall c hc
    · decide

theorem alice_basicAuth : ∃ header,
    encodeBasicAuth standardEngine "alice".toList "s3:cret".toList = some header ∧
      parseAuthorizationHeader standardEngine header.text =
        .ok (.basic "alice".toList "s3:cret".toList) := by
  obtain ⟨header, hencode, -, hiff, -⟩ :=
    basicAuth_iff standardEngine_standard "alice".toList "s3:cret".toList
  exact ⟨header, hencode, hiff.mpr (by decide)⟩

/-- A colon in a username moves a part of it to the password. -/
theorem colon_moves : (¬ ∀ username password : List Char, ∃ header,
      encodeBasicAuth standardEngine username password = some header ∧
        parseAuthorizationHeader standardEngine header.text = .ok (.basic username password)) ∧
    encodeBasicAuth standardEngine "a:b".toList "c".toList =
      encodeBasicAuth standardEngine "a".toList "b:c".toList := by
  refine ⟨fun h => ?_, rfl⟩
  obtain ⟨header, hencode, hparse⟩ := h "a:b".toList "c".toList
  obtain ⟨header', hencode', htext⟩ :=
    exists_header standardEngine_standard "a".toList "b:c".toList
  obtain rfl : header' = header := Option.some.inj (hencode'.symm.trans hencode)
  rw [htext, parseAuthorizationHeader_encode standardEngine_standard (by decide)] at hparse
  exact absurd (AuthCredential.basic.inj (Except.ok.inj hparse)).1 (by decide)

end Dssh
