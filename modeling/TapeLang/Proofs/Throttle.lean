import TapeLang.Debugger.Basic

/-! # The pause between instructions

A clock holds a duration as seconds and nanoseconds. Its sums and products carry whole seconds over,
and are refused if the seconds outgrow 64 bits; so they are exact or refused. The pause of a
debugger is such a product and sum. Up to 2^32 sessions it is what the delays ask for, beyond that
the number of sessions is cut off.
-/

namespace TapeLang

namespace Duration

/-- Whole seconds, and the nanoseconds that are left. -/
structure Parts where
  seconds : Nat
  nanos : Nat
  deriving DecidableEq

def parts (d : Duration) : Parts := ⟨d.seconds, d.subsecNanos⟩

namespace Parts

/-- A number of seconds that has 64 bits. -/
def fitting? (seconds : Nat) : Option Nat :=
  if seconds < 18446744073709551616 then some seconds else none

/-- The seconds are added first, then at most one second is carried over. -/
def add (p q : Parts) : Option Parts :=
  match fitting? (p.seconds + q.seconds) with
  | none => none
  | some seconds =>
    if p.nanos + q.nanos < 1000000000 then some ⟨seconds, p.nanos + q.nanos⟩
    else (fitting? (seconds + 1)).map fun seconds => ⟨seconds, p.nanos + q.nanos - 1000000000⟩

/-- The seconds are multiplied first, then those that the nanoseconds make up are carried over. -/
def scale (p : Parts) (n : Nat) : Option Parts :=
  match fitting? (p.seconds * n) with
  | none => none
  | some seconds =>
    (fitting? (seconds + p.nanos * n / 1000000000)).map fun seconds =>
      ⟨seconds, p.nanos * n % 1000000000⟩

def total (p : Parts) : Nat := p.seconds * 1000000000 + p.nanos

/-- Parts that a clock can hold. -/
structure Proper (p : Parts) : Prop where
  seconds : p.seconds < 18446744073709551616
  nanos : p.nanos < 1000000000

/-- The result is exact, or refused because so many nanoseconds are no duration. -/
inductive Exact (nanoseconds : Nat) : Option Parts → Prop
  | some {p : Parts} : p.Proper → p.total = nanoseconds → Exact nanoseconds (some p)
  | none : limit ≤ nanoseconds → Exact nanoseconds none

variable {p q : Parts} {n : Nat} {r r' : Option Parts}

theorem Proper.total_lt (h : p.Proper) : p.total < limit := by
  obtain ⟨hseconds, hnanos⟩ := h
  simp only [total, limit]
  omega

theorem Proper.eq_of_total (hp : p.Proper) (hq : q.Proper) (h : p.total = q.total) : p = q := by
  obtain ⟨-, hp⟩ := hp
  obtain ⟨-, hq⟩ := hq
  obtain ⟨s, m⟩ := p
  obtain ⟨t, n⟩ := q
  simp only [total] at h hp hq
  obtain ⟨rfl, rfl⟩ : s = t ∧ m = n := by omega
  rfl

theorem Exact.unique (h : Exact n r) (h' : Exact n r') : r = r' := by
  cases h with
  | some hp htotal =>
    cases h' with
    | some hq htotal' => rw [hp.eq_of_total hq (htotal.trans htotal'.symm)]
    | none hle =>
      have hlt := hp.total_lt
      omega
  | none hle =>
    cases h' with
    | some hq htotal =>
      have hlt := hq.total_lt
      omega
    | none => rfl

theorem exact_add (hp : p.Proper) (hq : q.Proper) : Exact (p.total + q.total) (p.add q) := by
  obtain ⟨-, hp⟩ := hp
  obtain ⟨-, hq⟩ := hq
  unfold add
  by_cases hseconds : p.seconds + q.seconds < 18446744073709551616
  · rw [fitting?, if_pos hseconds]
    dsimp only
    split
    · next hnanos => exact .some ⟨hseconds, hnanos⟩ (by simp only [total]; omega)
    · next hnanos =>
      by_cases hcarry : p.seconds + q.seconds + 1 < 18446744073709551616
      · rw [fitting?, if_pos hcarry, Option.map_some]
        exact .some ⟨hcarry, by dsimp only; omega⟩ (by simp only [total]; omega)
      · rw [fitting?, if_neg hcarry, Option.map_none]
        exact .none (by simp only [total, limit]; omega)
  · rw [fitting?, if_neg hseconds]
    exact .none (by simp only [total, limit]; omega)

theorem exact_scale (p : Parts) (n : Nat) : Exact (p.total * n) (p.scale n) := by
  have htotal : p.total * n = p.seconds * n * 1000000000 + p.nanos * n := by
    rw [total, Nat.add_mul, Nat.mul_right_comm]
  have hnanos : p.nanos * n % 1000000000 < 1000000000 := Nat.mod_lt _ (by decide)
  rw [htotal]
  unfold scale
  generalize p.seconds * n = s at *
  generalize p.nanos * n = m at *
  by_cases hseconds : s < 18446744073709551616
  · rw [fitting?, if_pos hseconds]
    dsimp only
    by_cases hcarry : s + m / 1000000000 < 18446744073709551616
    · rw [fitting?, if_pos hcarry, Option.map_some]
      exact .some ⟨hcarry, hnanos⟩ (by simp only [total]; omega)
    · rw [fitting?, if_neg hcarry, Option.map_none]
      exact .none (by simp only [limit]; omega)
  · rw [fitting?, if_neg hseconds]
    exact .none (by simp only [limit]; omega)

end Parts

variable {a b : Duration}

theorem total_parts (d : Duration) : d.parts.total = d.nanoseconds :=
  Nat.div_add_mod' d.nanoseconds 1000000000

theorem proper_parts (h : a.nanoseconds < limit) : a.parts.Proper := by
  refine ⟨?_, Nat.mod_lt _ (by decide)⟩
  simp only [limit] at h
  simp only [parts, seconds]
  omega

theorem parts_add (ha : a.nanoseconds < limit) (hb : b.nanoseconds < limit) :
    (a.add b).toOption.map parts = a.parts.add b.parts := by
  have hexact := Parts.exact_add (proper_parts ha) (proper_parts hb)
  rw [total_parts, total_parts] at hexact
  refine Parts.Exact.unique ?_ hexact
  unfold add
  split
  · next hfits => exact .some (proper_parts hfits) (total_parts _)
  · next hfits => exact .none (Nat.le_of_not_lt hfits)

theorem lt_limit_of_scale {d : Duration} {n : Nat} (h : a.scale n = .ok d) :
    d.nanoseconds < limit := by
  unfold scale at h
  split at h
  · next hfits =>
    cases h
    exact hfits
  · cases h

theorem parts_scale (a : Duration) (n : Nat) :
    (a.scale n).toOption.map parts = a.parts.scale n := by
  have hexact := Parts.exact_scale a.parts n
  rw [total_parts] at hexact
  refine Parts.Exact.unique ?_ hexact
  unfold scale
  split
  · next hfits => exact .some (proper_parts hfits) (total_parts _)
  · next hfits => exact .none (Nat.le_of_not_lt hfits)

end Duration

namespace DebugConfig

variable {config : DebugConfig} {others k n : Nat} {result : Except Defect Duration}

/-- The extra delay for so many other sessions, in nanoseconds. -/
def extra (config : DebugConfig) (others : Nat) : Nat := config.sessionDelay.nanoseconds * others

/-- What the delays ask for with so many other sessions, in nanoseconds. -/
def demand (config : DebugConfig) (others : Nat) : Nat :=
  config.stepDelay.nanoseconds + config.extra others

/-- Both the extra delay and the whole are durations. -/
def Fits (config : DebugConfig) (others : Nat) : Prop :=
  config.extra others < Duration.limit ∧ config.demand others < Duration.limit

/-- The pause is all that the delays ask for, or refused with an overflow. -/
inductive Grants (config : DebugConfig) (others : Nat) : Except Defect Duration → Prop
  | exact : config.Fits others → Grants config others (.ok ⟨config.demand others⟩)
  | refused {defect : Defect} : defect ∈ [.durationProductOverflow, .durationSumOverflow] →
      ¬ config.Fits others → Grants config others (.error defect)

theorem extra_mono (config : DebugConfig) (h : k ≤ others) : config.extra k ≤ config.extra others :=
  Nat.mul_le_mul_left _ h

theorem Fits.mono (h : config.Fits others) (hle : k ≤ others) : config.Fits k := by
  have hextra := config.extra_mono hle
  obtain ⟨hproduct, hsum⟩ := h
  unfold Fits demand at *
  omega

theorem Grants.of_extra_eq (h : config.Grants k result)
    (hextra : config.extra k = config.extra others) : config.Grants others result := by
  have hdemand : config.demand k = config.demand others :=
    congrArg (config.stepDelay.nanoseconds + ·) hextra
  have hsame : config.Fits k ↔ config.Fits others := by rw [Fits, Fits, hextra, hdemand]
  cases h with
  | exact hfits =>
    rw [hdemand]
    exact .exact (hsame.mp hfits)
  | refused hdefect hfits => exact .refused hdefect fun hfits' => hfits (hsame.mpr hfits')

theorem Grants.eq_ok {d : Duration} (h : config.Grants others result) (hfits : config.Fits others)
    (hd : config.demand others = d.nanoseconds) : result = .ok d := by
  cases h with
  | exact => rw [hd]
  | refused _ hnot => exact absurd hfits hnot

/-- The number of other sessions is cut off at 32 bits. -/
theorem grants_throttle (config : DebugConfig) :
    config.Grants ((max config.sessions 1 - 1) % 4294967296) config.throttle := by
  have hothers : max config.sessions 1 - 1 = config.sessions - 1 := by omega
  rw [hothers, throttle]
  generalize (config.sessions - 1) % 4294967296 = others
  by_cases hproduct : config.extra others < Duration.limit
  · have hscale : config.sessionDelay.scale others = .ok ⟨config.extra others⟩ := if_pos hproduct
    rw [hscale]
    dsimp only
    by_cases hsum : config.demand others < Duration.limit
    · have hadd : config.stepDelay.add ⟨config.extra others⟩ = .ok ⟨config.demand others⟩ :=
        if_pos hsum
      rw [hadd]
      exact .exact ⟨hproduct, hsum⟩
    · have hadd : config.stepDelay.add ⟨config.extra others⟩ = .error .durationSumOverflow :=
        if_neg hsum
      rw [hadd]
      exact .refused (by decide) fun hfits => hsum hfits.2
  · have hscale : config.sessionDelay.scale others = .error .durationProductOverflow :=
      if_neg hproduct
    rw [hscale]
    exact .refused (by decide) fun hfits => hproduct hfits.1

/-- The pause is as the delays ask for it exactly if no session is cut off, none asks for a delay,
or it is refused all the same. -/
theorem grants_throttle_iff (config : DebugConfig) :
    config.Grants (max config.sessions 1 - 1) config.throttle ↔
      config.sessions ≤ 4294967296 ∨ config.sessionDelay = .zero ∨
        ∃ defect, config.throttle = .error defect := by
  have hcut := config.grants_throttle
  generalize hothers : max config.sessions 1 - 1 = others at *
  generalize config.throttle = result at *
  constructor
  · intro hgrants
    rcases Nat.lt_or_ge others 4294967296 with hfew | hmany
    · exact Or.inl (by omega)
    cases hcut with
    | refused => exact Or.inr (Or.inr ⟨_, rfl⟩)
    | exact =>
      -- The same pause for two numbers of sessions.
      have hsame : config.extra others = config.extra (others % 4294967296) := by
        generalize hpause : config.demand (others % 4294967296) = pause at hgrants
        cases hgrants
        exact Nat.add_left_cancel hpause.symm
      have hlt : others % 4294967296 < others :=
        Nat.lt_of_lt_of_le (Nat.mod_lt _ (by decide)) hmany
      refine Or.inr (Or.inl (congrArg Duration.mk (Nat.eq_zero_of_not_pos fun hpos => ?_)))
      exact Nat.ne_of_gt (Nat.mul_lt_mul_of_pos_left hlt hpos) hsame
  · rintro (hfew | hnone | ⟨defect, rfl⟩)
    · rwa [Nat.mod_eq_of_lt (by omega)] at hcut
    · exact hcut.of_extra_eq (by simp [extra, hnone, Duration.zero])
    · cases hcut with
      | refused hdefect hfits =>
        exact .refused hdefect fun hfits' => hfits (hfits'.mono (Nat.mod_le _ _))

theorem throttle_mono {d : Duration} (hle : config.sessions ≤ n) (hn : n ≤ 4294967296)
    (h : throttle { config with sessions := n } = .ok d) :
    ∃ d', config.throttle = .ok d' ∧ d'.nanoseconds ≤ d.nanoseconds := by
  have hmore := (grants_throttle_iff { config with sessions := n }).mpr (Or.inl hn)
  have hless := config.grants_throttle_iff.mpr (Or.inl (Nat.le_trans hle hn))
  have hothers : max config.sessions 1 - 1 ≤ max n 1 - 1 := by omega
  rw [h] at hmore
  cases hmore with
  | exact hfits =>
    have hfits' : config.Fits (max n 1 - 1) := hfits
    exact ⟨_, hless.eq_ok (hfits'.mono hothers) rfl,
      Nat.add_le_add_left (config.extra_mono hothers) _⟩

theorem parts_throttle (hstep : config.stepDelay.nanoseconds < Duration.limit) :
    config.throttle.toOption.map Duration.parts =
      (config.sessionDelay.parts.scale ((max config.sessions 1 - 1) % 4294967296)).bind
        config.stepDelay.parts.add := by
  have hothers : max config.sessions 1 - 1 = config.sessions - 1 := by omega
  rw [hothers, ← Duration.parts_scale, throttle]
  cases hscale : config.sessionDelay.scale ((config.sessions - 1) % 4294967296) with
  | error defect => rfl
  | ok extra => exact Duration.parts_add hstep (Duration.lt_limit_of_scale hscale)

end DebugConfig

/-- The pause after each instruction is exact or refused, for a number of other sessions that is cut
off at 32 bits. Up to 2^32 sessions nothing is cut off, and the pause never decreases. -/
theorem throttle_exact_or_refused (config : DebugConfig)
    (hstep : config.stepDelay.nanoseconds < Duration.limit) :
    config.throttle.toOption.map Duration.parts =
        (config.sessionDelay.parts.scale ((max config.sessions 1 - 1) % 4294967296)).bind
          config.stepDelay.parts.add ∧
      config.Grants ((max config.sessions 1 - 1) % 4294967296) config.throttle ∧
      (config.Grants (max config.sessions 1 - 1) config.throttle ↔
        config.sessions ≤ 4294967296 ∨ config.sessionDelay = .zero ∨
          ∃ defect, config.throttle = .error defect) ∧
      ∀ n d, config.sessions ≤ n → n ≤ 4294967296 →
        DebugConfig.throttle { config with sessions := n } = .ok d →
        ∃ d', config.throttle = .ok d' ∧ d'.nanoseconds ≤ d.nanoseconds :=
  ⟨DebugConfig.parts_throttle hstep, config.grants_throttle, config.grants_throttle_iff,
    fun _ _ => DebugConfig.throttle_mono⟩

theorem throttle_exact_or_refused_carried :
    ∃ config : DebugConfig, ∃ less more : Duration,
      config.stepDelay.nanoseconds < Duration.limit ∧ config.sessions = 4294967295 ∧
      config.sessionDelay.parts = ⟨1, 999999999⟩ ∧ config.Grants 4294967294 config.throttle ∧
      config.throttle.toOption.map Duration.parts = some ⟨8589934583, 705032706⟩ ∧
      DebugConfig.throttle { config with sessions := 4294967296 } = .ok more ∧
      config.throttle = .ok less ∧ less.nanoseconds ≤ more.nanoseconds := by
  let config : DebugConfig := { sessions := 4294967295, sessionDelay := ⟨1999999999⟩ }
  have hmore : DebugConfig.throttle { config with sessions := 4294967296 } =
      .ok ⟨8589934585705032705⟩ :=
    (DebugConfig.grants_throttle _).eq_ok ⟨by decide, by decide⟩ (by decide)
  obtain ⟨hparts, hgrants, -, hmono⟩ := throttle_exact_or_refused config (by decide)
  obtain ⟨less, hless, hle⟩ := hmono 4294967296 _ (by decide) (by decide) hmore
  exact ⟨config, less, _, by decide, rfl, by decide, hgrants, hparts.trans (by decide), hmore,
    hless, hle⟩

/-- A delay of one second for each other session, of which there are 2^32. -/
def crowdedDebugger : DebugConfig where
  sessions := 4294967297
  sessionDelay := .ofMillis 1000

/-- With one session more than can be counted there is no pause at all, although the delays ask for
2^32 seconds, and one session less had a pause of 2^32 - 1 seconds. -/
theorem throttle_cut_off :
    crowdedDebugger.throttle = .ok .zero ∧
      crowdedDebugger.demand (max crowdedDebugger.sessions 1 - 1) = 4294967296 * 1000000000 ∧
      ¬ crowdedDebugger.Grants (max crowdedDebugger.sessions 1 - 1) crowdedDebugger.throttle ∧
      DebugConfig.throttle { crowdedDebugger with sessions := 4294967296 } =
        .ok ⟨4294967295 * 1000000000⟩ := by
  have hthrottle : crowdedDebugger.throttle = .ok .zero :=
    crowdedDebugger.grants_throttle.eq_ok ⟨by decide, by decide⟩ (by decide)
  refine ⟨hthrottle, by decide, fun hgrants => ?_,
    (DebugConfig.grants_throttle _).eq_ok ⟨by decide, by decide⟩ (by decide)⟩
  rcases crowdedDebugger.grants_throttle_iff.mp hgrants with hfew | hnone | ⟨defect, hdefect⟩
  · exact absurd hfew (by decide)
  · exact absurd hnone (by decide)
  · rw [hthrottle] at hdefect
    cases hdefect

end TapeLang
