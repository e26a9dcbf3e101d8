/-
HyperCors.BuilderCalls — configuring the middleware by a sequence of
setter calls.

`Setting` is one call of a setter with its argument, `configured` the
builder after a sequence of them. The builder is a record written field by
field (`apply_sets`), except that `vary` writes two: the value and the pin
that stops `update_vary` from deriving another. So each knob is what its
last call made it, whatever came between and after, and so is what
`tryBuild` makes of the knobs: `builder_order_irrelevant`.
-/
import HyperCors.Config
import HyperCors.Lib.LastCall

namespace HyperCors

/-- The knobs of a configuration. -/
inductive Knob where
  | allowOrigin
  | allowCredentials
  | allowMethods
  | allowHeaders
  | exposeHeaders
  | maxAge
  | vary
  | deliverPreflight
  | deliverNonAllowedOrigin
  | deliverNonAllowedOriginWebsocketUpgrade
  | rejectionStatus
deriving DecidableEq

deriving instance DecidableEq for AllowMethods

deriving instance DecidableEq for AllowHeaders

section BuilderCalls

variable [HttpCrate] [ItoaCrate]

/-! ## Calls -/

/-- A call of a setter. -/
inductive Setting where
  | allowOrigin (allowOrigin : AllowOrigin)
  | allowCredentials (allowCredentials : AllowCredentials)
  | allowMethods (allowMethods : AllowMethods)
  | allowHeaders (allowHeaders : AllowHeaders)
  | exposeHeaders (exposeHeaders : ExposeHeaders)
  | maxAge (maxAge : Duration)
  | vary (headers : Vary)
  | deliverPreflight (deliver : Bool)
  | deliverNonAllowedOrigin (deliver : Bool)
  | deliverNonAllowedOriginWebsocketUpgrade (deliver : Bool)
  | rejectionStatus (status : StatusCode)

def Setting.knob : Setting → Knob
  | .allowOrigin _ => .allowOrigin
  | .allowCredentials _ => .allowCredentials
  | .allowMethods _ => .allowMethods
  | .allowHeaders _ => .allowHeaders
  | .exposeHeaders _ => .exposeHeaders
  | .maxAge _ => .maxAge
  | .vary _ => .vary
  | .deliverPreflight _ => .deliverPreflight
  | .deliverNonAllowedOrigin _ => .deliverNonAllowedOrigin
  | .deliverNonAllowedOriginWebsocketUpgrade _ => .deliverNonAllowedOriginWebsocketUpgrade
  | .rejectionStatus _ => .rejectionStatus

/-- The setting produces the constant `*`. -/
def Setting.ProducesWildcard : Setting → Prop
  | .allowOrigin policy => policy.inner = .const wildcard
  | .allowMethods methods => methods = .const (some wildcard)
  | .allowHeaders headers => headers = .const (some wildcard)
  | .exposeHeaders headers => headers = .const (some wildcard)
  | _ => False

namespace CorsBuilder

def apply (self : CorsBuilder) : Setting → CorsBuilder
  | .allowOrigin policy => self.setAllowOrigin policy
  | .allowCredentials credentials => self.setAllowCredentials credentials
  | .allowMethods methods => self.setAllowMethods methods
  | .allowHeaders headers => self.setAllowHeaders headers
  | .exposeHeaders headers => self.setExposeHeaders headers
  | .maxAge duration => self.setMaxAge duration
  | .vary headers => self.setVary headers
  | .deliverPreflight deliver => self.setDeliverPreflight deliver
  | .deliverNonAllowedOrigin deliver => self.setDeliverNonAllowedOrigin deliver
  | .deliverNonAllowedOriginWebsocketUpgrade deliver =>
    self.setDeliverNonAllowedOriginWebsocketUpgrade deliver
  | .rejectionStatus status => self.setRejectionStatus status

/-- The builder after a sequence of calls. -/
def configured (calls : List Setting) : CorsBuilder := calls.foldl apply new

end CorsBuilder

/-- The last call of a knob's setter. -/
def lastCall (k : Knob) (calls : List Setting) : Option Setting :=
  LastCall.last Setting.knob k calls

/-! ## Reading a knob -/

/-- What a knob holds: for `vary` the value and the pin. -/
@[reducible] def Knob.Value : Knob → Type
  | .allowOrigin => AllowOrigin
  | .allowCredentials => AllowCredentials
  | .allowMethods => AllowMethods
  | .allowHeaders => AllowHeaders
  | .exposeHeaders => ExposeHeaders
  | .maxAge => MaxAge
  | .vary => Vary × Bool
  | .deliverPreflight => Bool
  | .deliverNonAllowedOrigin => Bool
  | .deliverNonAllowedOriginWebsocketUpgrade => Bool
  | .rejectionStatus => StatusCode

namespace CorsBuilder

def read (self : CorsBuilder) : (k : Knob) → k.Value
  | .allowOrigin => self.allowOrigin
  | .allowCredentials => self.allowCredentials
  | .allowMethods => self.allowMethods
  | .allowHeaders => self.allowHeaders
  | .exposeHeaders => self.exposeHeaders
  | .maxAge => self.maxAge
  | .vary => (self.vary, self.varyPinned)
  | .deliverPreflight => self.deliverPreflight
  | .deliverNonAllowedOrigin => self.deliverNonAllowedOrigin
  | .deliverNonAllowedOriginWebsocketUpgrade => self.deliverNonAllowedOriginWebsocketUpgrade
  | .rejectionStatus => self.rejectionStatus

/-- A setter sets its own knob and no other. -/
theorem apply_sets : LastCall.Sets apply Setting.knob read where
  same := by
    intro s s' c
    cases c <;> rfl
  other := by
    intro s c k hk
    cases c <;> cases k <;> first | rfl | exact absurd rfl hk

omit [ItoaCrate] in
/-- A configuration is the values of its knobs. -/
theorem ext_read {s s' : CorsBuilder} (h : ∀ k, s.read k = s'.read k) : s = s' := by
  have hvary := Prod.mk.inj (h .vary)
  cases s
  cases s'
  congr
  · exact h .allowOrigin
  · exact h .allowCredentials
  · exact h .allowMethods
  · exact h .allowHeaders
  · exact h .exposeHeaders
  · exact h .maxAge
  · exact hvary.1
  · exact hvary.2
  · exact h .deliverPreflight
  · exact h .deliverNonAllowedOrigin
  · exact h .deliverNonAllowedOriginWebsocketUpgrade
  · exact h .rejectionStatus

/-- Each knob is what its last call made it, or what it was. -/
theorem read_configured (calls : List Setting) (k : Knob) :
    (configured calls).read k =
      (lastCall k calls).elim (new.read k) fun c => (new.apply c).read k :=
  apply_sets.read_foldl new calls k

/-- Sequences with the same last calls configure the same builder. -/
theorem configured_congr {calls calls' : List Setting}
    (h : ∀ k, lastCall k calls' = lastCall k calls) : configured calls' = configured calls :=
  apply_sets.foldl_congr (fun _ _ => ext_read) new h

/-! ## What validation sees -/

/-- Credentials are unconditional exactly if the last call made them so. -/
theorem allowCredentials_configured {calls : List Setting} :
    (configured calls).allowCredentials.isTrue = true ↔
      lastCall .allowCredentials calls = some (.allowCredentials .yes) := by
  have hstart : ¬ AllowCredentials.isTrue (new.read .allowCredentials) = true := by
    simp [read, new, AllowCredentials.isTrue]
  refine (apply_sets.read_foldl_iff (k := .allowCredentials)
    (P := fun v => AllowCredentials.isTrue v = true) hstart).trans ?_
  constructor
  · intro h
    obtain ⟨c, hc, hyes⟩ := h
    have hknob := LastCall.key_of_last hc
    cases c with
    | allowCredentials credentials =>
      cases credentials with
      | yes => exact hc
      | no => cases hyes
      | predicate f => cases hyes
    | _ => cases hknob
  · intro h
    exact ⟨_, h, rfl⟩

end CorsBuilder

/-- The knob holds the constant `*`. -/
def Knob.IsWildcard : (k : Knob) → k.Value → Prop
  | .allowOrigin, policy => policy.inner = .const wildcard
  | .allowMethods, methods => methods = .const (some wildcard)
  | .allowHeaders, headers => headers = .const (some wildcard)
  | .exposeHeaders, headers => headers = .const (some wildcard)
  | _, _ => False

namespace CorsBuilder

omit [ItoaCrate] in
theorem not_isWildcard_new (k : Knob) : ¬ k.IsWildcard (new.read k) := by
  cases k <;> simp [Knob.IsWildcard, read, new, AllowOrigin.default]

theorem isWildcard_apply (self : CorsBuilder) (c : Setting) :
    c.knob.IsWildcard ((self.apply c).read c.knob) ↔ c.ProducesWildcard := by
  cases c <;> exact Iff.rfl

/-- A knob holds the constant `*` if its last setting produces it. -/
theorem isWildcard_configured {calls : List Setting} {k : Knob} :
    k.IsWildcard ((configured calls).read k) ↔
      ∃ c, lastCall k calls = some c ∧ c.ProducesWildcard := by
  refine (apply_sets.read_foldl_iff (not_isWildcard_new k)).trans (exists_congr ?_)
  intro c
  refine and_congr_right ?_
  intro hc
  rw [← LastCall.key_of_last hc]
  exact isWildcard_apply new c

/-- The settings validation compares with `*` are the last ones. -/
theorem exists_isWildcard_configured {calls : List Setting} :
    (∃ k, Knob.IsWildcard k ((configured calls).read k)) ↔
      ∃ k c, lastCall k calls = some c ∧ c.ProducesWildcard :=
  exists_congr fun _ => isWildcard_configured

omit [ItoaCrate] in
theorem exists_isWildcard_iff (self : CorsBuilder) :
    (∃ k, Knob.IsWildcard k (self.read k)) ↔ self.allowOrigin.isWildcard = true ∨
      self.allowMethods.isWildcard = true ∨ self.allowHeaders.isWildcard = true ∨
      self.exposeHeaders.isWildcard = true := by
  rw [AllowOrigin.isWildcard_iff, AllowMethods.isWildcard_iff, AllowHeaders.isWildcard_iff,
    ExposeHeaders.isWildcard_iff]
  constructor
  · intro h
    obtain ⟨k, hk⟩ := h
    cases k with
    | allowOrigin => exact Or.inl hk
    | allowMethods => exact Or.inr (Or.inl hk)
    | allowHeaders => exact Or.inr (Or.inr (Or.inl hk))
    | exposeHeaders => exact Or.inr (Or.inr (Or.inr hk))
    | _ => cases hk
  · intro h
    rcases h with h | h | h | h
    · exact ⟨.allowOrigin, h⟩
    · exact ⟨.allowMethods, h⟩
    · exact ⟨.allowHeaders, h⟩
    · exact ⟨.exposeHeaders, h⟩

/-! ## What `Vary` becomes -/

omit [ItoaCrate] in
/-- Bringing `vary` up to date leaves the other knobs alone. -/
theorem read_updateVary (self : CorsBuilder) {k : Knob} (hk : k ≠ .vary) :
    self.updateVary.read k = self.read k := by
  rw [updateVary_eq]
  cases k <;> first | rfl | exact absurd rfl hk

omit [ItoaCrate] in
theorem derivedVaryNames_eq (self : CorsBuilder) :
    self.derivedVaryNames = header.origin ::
      ((if self.allowMethods = .mirrorRequest then [header.accessControlRequestMethod] else []) ++
        if self.allowHeaders = .mirrorRequest then [header.accessControlRequestHeaders]
        else []) := by
  unfold derivedVaryNames
  cases self.allowMethods <;> cases self.allowHeaders <;>
    simp [AllowMethods.variesWithRequestMethod, AllowHeaders.variesWithRequestHeaders]

/-- The last `vary` call pins its list; without one the names are derived. -/
theorem vary_configured (calls : List Setting) :
    (∃ headers, lastCall .vary calls = some (.vary headers) ∧
      (configured calls).updateVary.vary = headers) ∨
    (lastCall .vary calls = none ∧
      (configured calls).updateVary.vary = .list (configured calls).derivedVaryNames) := by
  have hread := read_configured calls .vary
  cases hlast : lastCall .vary calls with
  | none =>
    rw [hlast] at hread
    exact Or.inr ⟨rfl, updateVary_vary (Prod.mk.inj hread).2⟩
  | some c =>
    rw [hlast] at hread
    have hknob := LastCall.key_of_last hlast
    cases c with
    | vary headers =>
      obtain ⟨hvalue, hpinned⟩ := Prod.mk.inj hread
      refine Or.inl ⟨headers, rfl, ?_⟩
      rw [updateVary_of_pinned hpinned]
      exact hvalue
    | _ => cases hknob

end CorsBuilder

/-! ## Order independence -/

/-- **The order of calls does not matter across knobs.** The builder refuses
a sequence of calls exactly if its last credentials setting is `yes` and
some last setting is the constant `*`. Otherwise each knob is what its last
call made it: `vary` the list it was pinned to, wherever in the sequence,
and without a pin the names the final methods and headers ask for. So
sequences that agree on the last call of every knob, and those that order
the calls of each knob alike, build the same middleware. -/
theorem builder_order_irrelevant {S : Type} (inner : S) (calls : List Setting) :
    ((∃ e, (CorsBuilder.configured calls).tryBuild inner = .error e) ↔
      lastCall .allowCredentials calls = some (.allowCredentials .yes) ∧
        ∃ k c, lastCall k calls = some c ∧ c.ProducesWildcard) ∧
    (∀ cors, (CorsBuilder.configured calls).tryBuild inner = .ok cors →
      cors.inner = inner ∧
      (∀ k, k ≠ .vary → cors.config.read k =
        (lastCall k calls).elim (CorsBuilder.new.read k) fun c =>
          (CorsBuilder.new.apply c).read k) ∧
      ((∃ names, lastCall .vary calls = some (.vary (.list names)) ∧
          cors.config.vary = .list names ∧ (cors.config.vary.toHeader = none ↔ names = [])) ∨
        (lastCall .vary calls = none ∧
          cors.config.vary = .list (header.origin ::
            ((if cors.config.allowMethods = .mirrorRequest then
                [header.accessControlRequestMethod] else []) ++
              if cors.config.allowHeaders = .mirrorRequest then
                [header.accessControlRequestHeaders] else []))))) ∧
    (∀ calls', (∀ k, lastCall k calls' = lastCall k calls) →
      (CorsBuilder.configured calls').tryBuild inner =
        (CorsBuilder.configured calls).tryBuild inner) ∧
    ∀ calls', (∀ k, (calls'.filter fun c => c.knob = k) = calls.filter fun c => c.knob = k) →
      (CorsBuilder.configured calls').tryBuild inner =
        (CorsBuilder.configured calls).tryBuild inner := by
  have hlast : ∀ calls', (∀ k, lastCall k calls' = lastCall k calls) →
      (CorsBuilder.configured calls').tryBuild inner =
        (CorsBuilder.configured calls).tryBuild inner := by
    intro calls' h
    rw [CorsBuilder.configured_congr h]
  refine ⟨?_, ?_, hlast, ?_⟩
  · rw [CorsBuilder.exists_tryBuild_eq_error_iff, CorsBuilder.allowCredentials_configured,
      ← CorsBuilder.exists_isWildcard_iff, CorsBuilder.exists_isWildcard_configured]
  · intro cors hbuild
    obtain ⟨_, rfl⟩ := CorsBuilder.tryBuild_eq_ok hbuild
    refine ⟨rfl, ?_, ?_⟩
    · intro k hk
      rw [CorsBuilder.read_updateVary _ hk, CorsBuilder.read_configured]
    · rcases CorsBuilder.vary_configured calls with ⟨headers, hcall, hvary⟩ | ⟨hnone, hvary⟩
      · obtain ⟨names, hnames⟩ := headers.joined
        obtain rfl : headers = .list names := Vary.ext hnames
        refine Or.inl ⟨names, hcall, hvary, ?_⟩
        rw [hvary]
        exact Vary.toHeader_list_eq_none_iff
      · refine Or.inr ⟨hnone, ?_⟩
        rw [hvary, CorsBuilder.derivedVaryNames_eq, CorsBuilder.updateVary_eq]
  · intro calls' hfilter
    exact hlast calls' fun k => LastCall.last_congr (hfilter k)

end BuilderCalls

/-- A pin, even an empty one, survives the calls after it. -/
example : (CorsBuilder.configured [.vary (.list []), .allowMethods .any]).updateVary.vary =
    .list [] := rfl

end HyperCors
