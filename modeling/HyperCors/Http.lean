/-
HyperCors.Http — the types of the standard library and of the `http`
crate that the middleware works on.

Byte strings are `List UInt8`; header values, header names, methods and
status codes are byte strings or numbers that carry the crate's validity
check as a field, so an invalid one cannot be built. `HeaderMap` and
`Extensions` are left abstract: `HttpCrate` lists the operations the
middleware calls and what the crate documents about them, and every
result of the development holds for any crate that keeps this contract.
`listHttp` is one, with a header map that is a list of fields.

The crate's limit on the size of a header map is assumed to be out of
reach, so `insert` and `append` are total.
-/
import HyperCors.Lib.TokenList

namespace HyperCors

/-! ## Bytes -/

abbrev Bytes := List UInt8

/-- The bytes of an ASCII literal. -/
def ascii (s : String) : Bytes := s.toList.map Char.toUInt8

def isAsciiAlphanumeric (b : UInt8) : Bool :=
  (48 ≤ b && b ≤ 57) || (65 ≤ b && b ≤ 90) || (97 ≤ b && b ≤ 122)

/-- `u8::is_ascii_whitespace`: space, tab, line feed, form feed, carriage
return. -/
def isAsciiWhitespace (b : UInt8) : Bool :=
  b == 32 || b == 9 || b == 10 || b == 12 || b == 13

def toAsciiLowercase (b : UInt8) : UInt8 := if 65 ≤ b && b ≤ 90 then b + 32 else b

def eqIgnoreAsciiCase (s t : Bytes) : Bool :=
  s.map toAsciiLowercase == t.map toAsciiLowercase

def trimAscii (s : Bytes) : Bytes := TokenList.trim isAsciiWhitespace s

def comma : UInt8 := 44

def space : UInt8 := 32

/-- The token characters of RFC 7230 §3.2.6. -/
def isTokenByte (b : UInt8) : Bool :=
  isAsciiAlphanumeric b || (ascii "!#$%&'*+-.^_`|~").contains b

theorem tokenPunctuation : ascii "!#$%&'*+-.^_`|~" =
    [33, 35, 36, 37, 38, 39, 42, 43, 45, 46, 94, 95, 96, 124, 126] := by decide

/-! ## Header values, header names, methods, status codes -/

/-- The byte check of `HeaderValue::from_bytes`. -/
def isHeaderValueByte (b : UInt8) : Bool := (32 ≤ b && b != 127) || b == 9

/-- A token character may stand in a header value, and is neither a comma
nor white space. -/
theorem isTokenByte_visible {b : UInt8} (h : isTokenByte b = true) :
    isHeaderValueByte b = true ∧ b ≠ comma ∧ isAsciiWhitespace b = false := by
  rw [isTokenByte, tokenPunctuation, Bool.or_eq_true] at h
  rcases h with h | h
  · simp only [isAsciiAlphanumeric, Bool.or_eq_true, Bool.and_eq_true, decide_eq_true_eq,
      UInt8.le_iff_toNat_le, UInt8.reduceToNat] at h
    have hne : ∀ c : UInt8, c.toNat < 48 ∨ 122 < c.toNat → b ≠ c := by
      rintro c hc rfl
      omega
    simp [isHeaderValueByte, isAsciiWhitespace, comma, hne, UInt8.le_iff_toNat_le]
    omega
  · simp only [List.contains_iff_mem, List.mem_cons, List.not_mem_nil, or_false] at h
    rcases h with rfl | rfl | rfl | rfl | rfl | rfl | rfl | rfl | rfl | rfl | rfl | rfl | rfl |
      rfl | rfl <;> decide

structure HeaderValue where
  bytes : Bytes
  valid : bytes.all isHeaderValueByte = true
deriving DecidableEq

namespace HeaderValue

def fromBytes (src : Bytes) : Option HeaderValue :=
  if h : src.all isHeaderValueByte = true then some ⟨src, h⟩ else none

def fromStatic (src : String) (h : (ascii src).all isHeaderValueByte = true := by decide) :
    HeaderValue := ⟨ascii src, h⟩

@[ext] theorem ext {v w : HeaderValue} (h : v.bytes = w.bytes) : v = w := by
  cases v; cases w; simp_all

theorem isHeaderValueByte_of_mem (v : HeaderValue) {b : UInt8} (h : b ∈ v.bytes) :
    isHeaderValueByte b = true :=
  List.all_eq_true.mp v.valid b h

theorem fromBytes_eq_some {src : Bytes} {v : HeaderValue} (h : fromBytes src = some v) :
    v.bytes = src := by
  unfold fromBytes at h
  split at h
  · rw [← Option.some.inj h]
  · cases h

theorem isSome_fromBytes {src : Bytes} (h : ∀ b ∈ src, isHeaderValueByte b = true) :
    (fromBytes src).isSome = true := by
  simp [fromBytes, List.all_eq_true.mpr h]

/-- `HeaderValue::from_bytes(src).expect(..)` where the check cannot fail. -/
def expectBytes (src : Bytes) (h : ∀ b ∈ src, isHeaderValueByte b = true) : HeaderValue :=
  (fromBytes src).get (isSome_fromBytes h)

theorem fromBytes_eq_expectBytes {src : Bytes} (h : ∀ b ∈ src, isHeaderValueByte b = true) :
    fromBytes src = some (expectBytes src h) :=
  (Option.some_get _).symm

@[simp] theorem bytes_expectBytes (src : Bytes) (h : ∀ b ∈ src, isHeaderValueByte b = true) :
    (expectBytes src h).bytes = src :=
  fromBytes_eq_some (fromBytes_eq_expectBytes h)

end HeaderValue

/-- Header names are lower-case tokens: the crate normalises their case. -/
structure HeaderName where
  asStr : Bytes
  valid : (!asStr.isEmpty && asStr.all fun b => isTokenByte b && toAsciiLowercase b == b) = true
deriving DecidableEq

namespace HeaderName

def fromStatic (src : String)
    (h : (!(ascii src).isEmpty &&
      (ascii src).all fun b => isTokenByte b && toAsciiLowercase b == b) = true := by decide) :
    HeaderName := ⟨ascii src, h⟩

theorem asStr_ne_nil (n : HeaderName) : n.asStr ≠ [] := by
  have := n.valid
  simp only [Bool.and_eq_true, Bool.not_eq_true', List.isEmpty_eq_false_iff] at this
  exact this.1

theorem isTokenByte_of_mem (n : HeaderName) {b : UInt8} (h : b ∈ n.asStr) :
    isTokenByte b = true := by
  have := n.valid
  simp only [Bool.and_eq_true, List.all_eq_true] at this
  exact (this.2 b h).1

end HeaderName

/-- Methods are tokens; their case matters. -/
structure Method where
  asStr : Bytes
  valid : (!asStr.isEmpty && asStr.all isTokenByte) = true
deriving DecidableEq

namespace Method

def fromStatic (src : String)
    (h : (!(ascii src).isEmpty && (ascii src).all isTokenByte) = true := by decide) : Method :=
  ⟨ascii src, h⟩

def options : Method := fromStatic "OPTIONS"

def get : Method := fromStatic "GET"

end Method

structure StatusCode where
  code : Nat
  valid : 100 ≤ code ∧ code < 1000
deriving DecidableEq

def StatusCode.ok : StatusCode := ⟨200, by decide⟩

def StatusCode.badRequest : StatusCode := ⟨400, by decide⟩

inductive Version where
  | http09 | http10 | http11 | h2 | h3
deriving DecidableEq

namespace header

def origin := HeaderName.fromStatic "origin"
def vary := HeaderName.fromStatic "vary"
def secWebsocketVersion := HeaderName.fromStatic "sec-websocket-version"
def accessControlRequestMethod := HeaderName.fromStatic "access-control-request-method"
def accessControlRequestHeaders := HeaderName.fromStatic "access-control-request-headers"
def accessControlAllowOrigin := HeaderName.fromStatic "access-control-allow-origin"
def accessControlAllowCredentials := HeaderName.fromStatic "access-control-allow-credentials"
def accessControlAllowMethods := HeaderName.fromStatic "access-control-allow-methods"
def accessControlAllowHeaders := HeaderName.fromStatic "access-control-allow-headers"
def accessControlMaxAge := HeaderName.fromStatic "access-control-max-age"
def accessControlExposeHeaders := HeaderName.fromStatic "access-control-expose-headers"

end header

/-! ## The `http` crate -/

/-- What the middleware uses of the `http` crate's maps. The laws are the
documented behaviour: `insert` replaces all values of a name, `append`
adds one at the end, and neither touches another name. -/
class HttpCrate where
  Map : Type
  Extensions : Type
  newMap : Map
  valuesOf : Map → HeaderName → List HeaderValue
  insertValue : Map → HeaderName → HeaderValue → Map
  appendValue : Map → HeaderName → HeaderValue → Map
  newExtensions : Extensions
  valuesOf_newMap : ∀ n, valuesOf newMap n = []
  valuesOf_insertValue : ∀ m n v n',
    valuesOf (insertValue m n v) n' = if n' = n then [v] else valuesOf m n'
  valuesOf_appendValue : ∀ m n v n',
    valuesOf (appendValue m n v) n' = if n' = n then valuesOf m n' ++ [v] else valuesOf m n'

/-- A header map that is the list of its fields. -/
instance (priority := low) listHttp : HttpCrate where
  Map := List (HeaderName × HeaderValue)
  Extensions := List (String × Nat)
  newMap := []
  valuesOf m n := (m.filter fun f => f.1 = n).map Prod.snd
  insertValue m n v := (m.filter fun f => f.1 ≠ n) ++ [(n, v)]
  appendValue m n v := m ++ [(n, v)]
  newExtensions := []
  valuesOf_newMap _ := rfl
  valuesOf_insertValue m n v n' := by
    by_cases h : n' = n
    · subst h; simp [List.filter_filter]
    · have hne : n ≠ n' := fun e => h e.symm
      simp only [if_neg h, List.filter_append, List.filter_filter, List.map_append]
      rw [List.filter_congr (q := fun f => decide (f.1 = n'))]
      · simp [hne]
      · intro f _
        by_cases hf : f.1 = n' <;> simp [hf, h]
  valuesOf_appendValue m n v n' := by
    by_cases h : n' = n
    · subst h; simp
    · have hne : n ≠ n' := fun e => h e.symm
      simp [h, hne]

abbrev HeaderMap [HttpCrate] : Type := HttpCrate.Map

abbrev Extensions [HttpCrate] : Type := HttpCrate.Extensions

section Http

variable [HttpCrate]

namespace HeaderMap

def new : HeaderMap := HttpCrate.newMap

/-- All values of a name, in order. -/
def getAll (m : HeaderMap) (n : HeaderName) : List HeaderValue := HttpCrate.valuesOf m n

/-- The first value of a name. -/
def get (m : HeaderMap) (n : HeaderName) : Option HeaderValue := (m.getAll n).head?

def containsKey (m : HeaderMap) (n : HeaderName) : Bool := !(m.getAll n).isEmpty

def insert (m : HeaderMap) (n : HeaderName) (v : HeaderValue) : HeaderMap :=
  HttpCrate.insertValue m n v

def append (m : HeaderMap) (n : HeaderName) (v : HeaderValue) : HeaderMap :=
  HttpCrate.appendValue m n v

@[simp] theorem getAll_new (n : HeaderName) : (new : HeaderMap).getAll n = [] :=
  HttpCrate.valuesOf_newMap n

theorem getAll_insert (m : HeaderMap) (n : HeaderName) (v : HeaderValue) (n' : HeaderName) :
    (m.insert n v).getAll n' = if n' = n then [v] else m.getAll n' :=
  HttpCrate.valuesOf_insertValue m n v n'

theorem getAll_append (m : HeaderMap) (n : HeaderName) (v : HeaderValue) (n' : HeaderName) :
    (m.append n v).getAll n' = if n' = n then m.getAll n' ++ [v] else m.getAll n' :=
  HttpCrate.valuesOf_appendValue m n v n'

end HeaderMap

/-- The head of a request. -/
structure Parts where
  method : Method
  uri : Bytes
  version : Version
  headers : HeaderMap
  extensions : Extensions

structure Request (A : Type) where
  parts : Parts
  body : A

structure Response (B : Type) where
  status : StatusCode
  version : Version
  headers : HeaderMap
  extensions : Extensions
  body : B

/-- `Response::new`: status 200, HTTP/1.1, no headers, no extensions. -/
def Response.new {B : Type} (body : B) : Response B :=
  { status := .ok, version := .http11, headers := .new,
    extensions := HttpCrate.newExtensions, body := body }

end Http

end HyperCors
