/-
HyperCors.Knobs — the configuration knobs other than the origin policy:
`AllowCredentials`, `AllowMethods`, `AllowHeaders`, `ExposeHeaders`,
`MaxAge` and `Vary`, with the helpers of `util.rs` they encode their
lists with.

Each knob has its public constructors and `toHeader`, the pair it puts on
a response. Where the source calls `expect` on `HeaderValue::from_bytes`
the model takes the value out with a proof that the check succeeds
(`HeaderValue.expectBytes`), so building a knob from a list is total.
-/
import HyperCors.HeaderBuf

namespace HyperCors

/-! ## `headers.rs` and `util.rs` -/

def wildcard : HeaderValue := .fromStatic "*"

def allowCredentialsTrue : HeaderValue := .fromStatic "true"

def isValidToken (s : Bytes) : Bool := !s.isEmpty && s.all isTokenByte

/-- The bytes `separated_by_commas` collects: the first value, then a comma
and a value each. -/
def commaBytes (fst : HeaderValue) (iter : List HeaderValue) : Bytes :=
  iter.foldl (fun result val => result ++ [comma] ++ val.bytes) fst.bytes

/-- The bytes `join_names` collects. -/
def commaSpaceBytes (first : HeaderName) (iter : List HeaderName) : Bytes :=
  iter.foldl (fun buf name => buf ++ [comma, space] ++ name.asStr) first.asStr

theorem commaBytes_eq (fst : HeaderValue) (iter : List HeaderValue) :
    commaBytes fst iter = List.intercalate [comma] ((fst :: iter).map HeaderValue.bytes) :=
  TokenList.foldl_append_glue [comma] HeaderValue.bytes iter fst.bytes

theorem commaSpaceBytes_eq (first : HeaderName) (iter : List HeaderName) :
    commaSpaceBytes first iter =
      List.intercalate [comma, space] ((first :: iter).map HeaderName.asStr) :=
  TokenList.foldl_append_glue [comma, space] HeaderName.asStr iter first.asStr

theorem commaBytes_valid (fst : HeaderValue) (iter : List HeaderValue) :
    ∀ b ∈ commaBytes fst iter, isHeaderValueByte b = true := by
  intro b hb
  rw [commaBytes_eq] at hb
  rcases TokenList.mem_intercalate hb with h | ⟨t, ht, hb⟩
  · rw [List.mem_singleton.mp h]; decide
  · obtain ⟨v, _, rfl⟩ := List.mem_map.mp ht
    exact v.isHeaderValueByte_of_mem hb

theorem commaSpaceBytes_valid (first : HeaderName) (iter : List HeaderName) :
    ∀ b ∈ commaSpaceBytes first iter, isHeaderValueByte b = true := by
  intro b hb
  rw [commaSpaceBytes_eq] at hb
  rcases TokenList.mem_intercalate hb with h | ⟨t, ht, hb⟩
  · simp only [List.mem_cons, List.not_mem_nil, or_false] at h
    rcases h with rfl | rfl <;> decide
  · obtain ⟨n, _, rfl⟩ := List.mem_map.mp ht
    exact (isTokenByte_visible (n.isTokenByte_of_mem hb)).1

/-- Joins values with `,`. -/
def separatedByCommas : List HeaderValue → Option HeaderValue
  | [] => none
  | fst :: iter => some (.expectBytes (commaBytes fst iter) (commaBytes_valid fst iter))

theorem separatedByCommas_eq_none_iff {iter : List HeaderValue} :
    separatedByCommas iter = none ↔ iter = [] := by
  cases iter <;> simp [separatedByCommas]

theorem bytes_of_separatedByCommas {iter : List HeaderValue} {v : HeaderValue}
    (h : separatedByCommas iter = some v) :
    v.bytes = List.intercalate [comma] (iter.map HeaderValue.bytes) := by
  cases iter with
  | nil => cases h
  | cons fst iter =>
    rw [← Option.some.inj h, HeaderValue.bytes_expectBytes, commaBytes_eq]

/-- `HeaderValue::from(HeaderName)`. -/
def HeaderName.toValue (n : HeaderName) : HeaderValue :=
  .expectBytes n.asStr fun _ hb => (isTokenByte_visible (n.isTokenByte_of_mem hb)).1

theorem Method.isTokenByte_of_mem (m : Method) {b : UInt8} (h : b ∈ m.asStr) :
    isTokenByte b = true := by
  have := m.valid
  simp only [Bool.and_eq_true, List.all_eq_true] at this
  exact this.2 b h

def methodToValue (m : Method) : HeaderValue :=
  .expectBytes m.asStr fun _ hb => (isTokenByte_visible (m.isTokenByte_of_mem hb)).1

section Knobs

variable [HttpCrate]

/-! ## `allow_credentials.rs` -/

inductive AllowCredentials where
  | yes
  | no
  | predicate (f : HeaderValue → Parts → Bool)

namespace AllowCredentials

def isTrue : AllowCredentials → Bool
  | .yes => true
  | _ => false

/-- Only the predicate looks at the origin: `yes` answers without one. -/
def toHeader (self : AllowCredentials) (origin : Option HeaderValue) (parts : Parts) :
    Option Pair :=
  let allowCreds := match self with
    | .yes => true
    | .no => false
    | .predicate f => match origin with
      | some o => f o parts
      | none => false
  if allowCreds then some (header.accessControlAllowCredentials, allowCredentialsTrue) else none

/-- Whether credentials are allowed on a request. -/
def allows : AllowCredentials → Option HeaderValue → Parts → Bool
  | .yes, _, _ => true
  | .no, _, _ => false
  | .predicate f, origin, parts => origin.any fun o => f o parts

theorem toHeader_eq (self : AllowCredentials) (origin : Option HeaderValue) (parts : Parts) :
    self.toHeader origin parts =
      if self.allows origin parts then
        some (header.accessControlAllowCredentials, allowCredentialsTrue)
      else none := by
  cases self <;> cases origin <;> rfl

end AllowCredentials

/-! ## `allow_methods.rs` -/

inductive AllowMethods where
  | const (value : Option HeaderValue)
  | mirrorRequest

namespace AllowMethods

def any : AllowMethods := .const (some wildcard)

def list (methods : List Method) : AllowMethods :=
  .const (separatedByCommas (methods.map methodToValue))

def isWildcard : AllowMethods → Bool
  | .const (some v) => v == wildcard
  | _ => false

omit [HttpCrate] in
theorem isWildcard_iff {self : AllowMethods} :
    self.isWildcard = true ↔ self = .const (some wildcard) := by
  cases self with
  | const value => cases value <;> simp [isWildcard]
  | mirrorRequest => simp [isWildcard]

def variesWithRequestMethod : AllowMethods → Bool
  | .mirrorRequest => true
  | _ => false

def toHeader (self : AllowMethods) (parts : Parts) : Option Pair :=
  let value := match self with
    | .const v => v
    | .mirrorRequest =>
      match parts.headers.get header.accessControlRequestMethod with
      | none => none
      | some raw => if isValidToken raw.bytes then some raw else none
  value.map fun v => (header.accessControlAllowMethods, v)

end AllowMethods

/-! ## `allow_headers.rs` -/

/-- The slow path's loop: the trimmed tokens that are valid, joined with
`,`. -/
def mirrorSanitizedLoop : List Bytes → Bytes → Bytes
  | [], out => out
  | tok :: rest, out =>
    let cleaned := trimAscii tok
    if !isValidToken cleaned then mirrorSanitizedLoop rest out
    else
      let out := if !out.isEmpty then out ++ [comma] else out
      mirrorSanitizedLoop rest (out ++ cleaned)

/-- Filters `Access-Control-Request-Headers` to valid tokens, preserving
their order. -/
def mirrorSanitized (raw : HeaderValue) : Option HeaderValue :=
  let bytes := raw.bytes
  if (bytes.splitOn comma).all isValidToken then some raw
  else
    let out := mirrorSanitizedLoop (bytes.splitOn comma) []
    if out.isEmpty then none else HeaderValue.fromBytes out

inductive AllowHeaders where
  | const (value : Option HeaderValue)
  | mirrorRequest

namespace AllowHeaders

def any : AllowHeaders := .const (some wildcard)

def list (headers : List HeaderName) : AllowHeaders :=
  .const (separatedByCommas (headers.map HeaderName.toValue))

def isWildcard : AllowHeaders → Bool
  | .const (some v) => v == wildcard
  | _ => false

omit [HttpCrate] in
theorem isWildcard_iff {self : AllowHeaders} :
    self.isWildcard = true ↔ self = .const (some wildcard) := by
  cases self with
  | const value => cases value <;> simp [isWildcard]
  | mirrorRequest => simp [isWildcard]

def variesWithRequestHeaders : AllowHeaders → Bool
  | .mirrorRequest => true
  | _ => false

def toHeader (self : AllowHeaders) (parts : Parts) : Option Pair :=
  let value := match self with
    | .const v => v
    | .mirrorRequest =>
      match parts.headers.get header.accessControlRequestHeaders with
      | none => none
      | some raw => mirrorSanitized raw
  value.map fun v => (header.accessControlAllowHeaders, v)

end AllowHeaders

/-! ## `expose_headers.rs` -/

inductive ExposeHeaders where
  | const (value : Option HeaderValue)

namespace ExposeHeaders

def any : ExposeHeaders := .const (some wildcard)

def list (headers : List HeaderName) : ExposeHeaders :=
  .const (separatedByCommas (headers.map HeaderName.toValue))

def isWildcard : ExposeHeaders → Bool
  | .const (some v) => v == wildcard
  | .const none => false

omit [HttpCrate] in
theorem isWildcard_iff {self : ExposeHeaders} :
    self.isWildcard = true ↔ self = .const (some wildcard) := by
  cases self with
  | const value => cases value <;> simp [isWildcard]

def toHeader : ExposeHeaders → Parts → Option Pair
  | .const value, _ => value.map fun v => (header.accessControlExposeHeaders, v)

end ExposeHeaders

/-! ## `max_age.rs` -/

/-- The whole seconds of a `std::time::Duration`. -/
structure Duration where
  asSecs : UInt64

/-- What the middleware uses of the `itoa` crate: the bytes of the string
that `Buffer::format` makes of an integer. -/
class ItoaCrate where
  format : UInt64 → Bytes

/-- The crate prints an integer as `Display` does. -/
def ItoaCrate.PrintsDecimal [ItoaCrate] : Prop :=
  ∀ n : UInt64, format n = ascii (toString n.toNat)

instance (priority := low) displayItoa : ItoaCrate where
  format n := ascii (toString n.toNat)

def secondsToHeaderValue [ItoaCrate] (seconds : UInt64) : Option HeaderValue :=
  HeaderValue.fromBytes (ItoaCrate.format seconds)

inductive MaxAgeInner where
  | exact (value : Option HeaderValue)

structure MaxAge where
  inner : MaxAgeInner

namespace MaxAge

def exact [ItoaCrate] (maxAge : Duration) : MaxAge := ⟨.exact (secondsToHeaderValue maxAge.asSecs)⟩

def none : MaxAge := ⟨.exact Option.none⟩

def toHeader (self : MaxAge) (_origin : Option HeaderValue) (_parts : Parts) : Option Pair :=
  match self.inner with
  | .exact value => value.map fun v => (header.accessControlMaxAge, v)

end MaxAge

end Knobs

/-! ## `vary.rs` -/

def joinNames : List HeaderName → Option HeaderValue
  | [] => none
  | first :: iter =>
    some (.expectBytes (commaSpaceBytes first iter) (commaSpaceBytes_valid first iter))

theorem joinNames_eq_none_iff {headers : List HeaderName} :
    joinNames headers = none ↔ headers = [] := by
  cases headers <;> simp [joinNames]

theorem bytes_of_joinNames {headers : List HeaderName} {v : HeaderValue}
    (h : joinNames headers = some v) :
    v.bytes = List.intercalate [comma, space] (headers.map HeaderName.asStr) := by
  cases headers with
  | nil => cases h
  | cons first iter =>
    rw [← Option.some.inj h, HeaderValue.bytes_expectBytes, commaSpaceBytes_eq]

/-- The joined value; `joined` records that it was made by `Vary::list`. -/
@[ext] structure Vary where
  value : Option HeaderValue
  joined : ∃ names, value = joinNames names

namespace Vary

def list (headers : List HeaderName) : Vary := ⟨joinNames headers, headers, rfl⟩

def toHeader (self : Vary) : Option Pair := self.value.map fun v => (header.vary, v)

theorem toHeader_list_eq_none_iff {names : List HeaderName} :
    (list names).toHeader = none ↔ names = [] :=
  Option.map_eq_none_iff.trans joinNames_eq_none_iff

def defaultHeaderNames : List HeaderName :=
  [header.origin, header.accessControlRequestMethod, header.accessControlRequestHeaders]

def default : Vary := list defaultHeaderNames

end Vary

end HyperCors
