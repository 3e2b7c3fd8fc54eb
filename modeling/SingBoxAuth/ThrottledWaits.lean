import SingBoxAuth.SpeedLimiters

/-! The token buckets behind throttled connections: rate and burst of a limiter, the changes that
are made to it while a connection holds it, and the wait for a number of bytes in chunks. -/
namespace SingBoxAuth.SpeedLimiter

/-- The float64 that is nearest to a number, with ties to even. -/
def roundDouble (n : ℕ) : ℕ :=
  let unit := 2 ^ (n.size - 53)
  let below := n / unit
  let rest := n % unit
  (if unit < 2 * rest ∨ (2 * rest = unit ∧ below % 2 = 1) then below + 1 else below) * unit

lemma roundDouble_of_le {n : ℕ} (h : n < 2 ^ 53) : roundDouble n = n := by
  have hs : n.size - 53 = 0 := Nat.sub_eq_zero_of_le (Nat.size_le.mpr h)
  unfold roundDouble
  rw [hs]
  simp [Nat.mod_one]

def mbpsToBps : ℕ := 125000

def bps (mbps : ℤ) : ℤ := mbps.sign * roundDouble (roundDouble mbps.natAbs * mbpsToBps)

/-- The conversion of a float64 to an int. What does not fit gives the smallest int. -/
def truncate (value : ℤ) : ℤ := if -2 ^ 63 ≤ value ∧ value < 2 ^ 63 then value else -2 ^ 63

def burstOf (mbps : ℤ) : ℤ := if truncate (bps mbps) ≤ 0 then 1 else truncate (bps mbps)

structure RateLimiter where
  limit : Option ℤ
  burst : ℤ
  deriving DecidableEq

namespace RateLimiter

def newLimiter (mbps : ℤ) : Option RateLimiter :=
  if mbps ≤ 0 then none else some ⟨some (bps mbps),burstOf mbps⟩

def setLimiterRate (_ : RateLimiter) (mbps : ℤ) : RateLimiter := ⟨some (bps mbps),burstOf mbps⟩

def neutralizeLimiter (limiter : RateLimiter) : RateLimiter := { limiter with limit := none }

inductive Change
  | setLimiterRate (mbps : ℤ)
  | neutralizeLimiter

def apply (limiter : RateLimiter) : Change → RateLimiter
  | .setLimiterRate mbps => limiter.setLimiterRate mbps
  | .neutralizeLimiter => limiter.neutralizeLimiter

def applyAll (limiter : RateLimiter) (changes : List Change) : RateLimiter :=
  changes.foldl apply limiter

inductive WaitError
  | contextEnded
  | exceedsBurst
  deriving DecidableEq

/-- One WaitN of the limiter, with whether the context ends before the tokens are there. -/
def wait (limiter : RateLimiter) (ended : Bool) (chunk : ℕ) : Option WaitError :=
  if limiter.limit ≠ none ∧ limiter.burst < chunk then some .exceedsBurst
  else if ended then some .contextEnded
  else none

structure Waited where
  err : Option WaitError
  chunks : List ℕ
  deriving DecidableEq

/-- The loop of waitN for n more bytes, from the call of the given number on. Before each call the
limiter may be changed, and at each call the context may end. -/
def waitLoop (burst : ℕ) (changes : ℕ → List Change) (ended : ℕ → Bool) (limiter : RateLimiter)
    (call n : ℕ) : Waited :=
  if _h : n = 0 then ⟨none,[]⟩
  else
    let chunk := min n (max burst 1)
    let limiter := limiter.applyAll (changes call)
    match limiter.wait (ended call) chunk with
    | some err => ⟨some err,[]⟩
    | none =>
      let rest := waitLoop burst changes ended limiter (call + 1) (n - chunk)
      ⟨rest.err,chunk :: rest.chunks⟩
  termination_by n

def waitN (limiter : RateLimiter) (changes : ℕ → List Change) (ended : ℕ → Bool) (n : ℕ) :
    Waited :=
  let burst := if limiter.burst ≤ 0 then 1 else limiter.burst.toNat
  waitLoop burst changes ended limiter 0 n

def atCall (limiter : RateLimiter) (changes : ℕ → List Change) : ℕ → RateLimiter
  | 0 => limiter.applyAll (changes 0)
  | call + 1 => (limiter.atCall changes call).applyAll (changes (call + 1))

/-- A chunk can be waited for when the limiter is lifted or has the burst for it. -/
def Admits (limiter : RateLimiter) (chunk : ℕ) : Prop :=
  limiter.limit = none ∨ (chunk : ℤ) ≤ limiter.burst

lemma wait_eq_exceedsBurst_iff (limiter : RateLimiter) (ended : Bool) (chunk : ℕ) :
    limiter.wait ended chunk = some .exceedsBurst ↔ ¬ limiter.Admits chunk := by
  unfold wait Admits
  by_cases h : limiter.limit ≠ none ∧ limiter.burst < chunk
  · rw [if_pos h]
    refine iff_of_true rfl ?_
    rintro (hno | hle)
    · exact h.1 hno
    · omega
  · rw [if_neg h]
    refine iff_of_false (by cases ended <;> simp) ?_
    rw [not_not]
    by_contra hn
    rw [not_or] at hn
    exact h ⟨hn.1,not_le.mp hn.2⟩

lemma wait_of_admits {limiter : RateLimiter} {chunk : ℕ} (h : limiter.Admits chunk)
    (ended : Bool) : limiter.wait ended chunk = if ended then some .contextEnded else none := by
  have hfits : ¬ (limiter.limit ≠ none ∧ limiter.burst < chunk) := by
    rintro ⟨hne,hlt⟩
    rcases h with hn | hle
    · exact hne hn
    · omega
  unfold wait
  rw [if_neg hfits]

section Loop

variable {burst : ℕ} {changes : ℕ → List Change} {ended : ℕ → Bool} {limiter : RateLimiter}
  {call n : ℕ}

lemma waitLoop_zero : waitLoop burst changes ended limiter call 0 = ⟨none,[]⟩ := by
  rw [waitLoop]
  rfl

lemma waitLoop_of_pos (hb : 0 < burst) (hn : 0 < n) : waitLoop burst changes ended limiter call n =
      match (limiter.applyAll (changes call)).wait (ended call) (min n burst) with
      | some err => ⟨some err,[]⟩
      | none =>
        ⟨(waitLoop burst changes ended (limiter.applyAll (changes call)) (call + 1)
            (n - min n burst)).err,
          min n burst :: (waitLoop burst changes ended (limiter.applyAll (changes call)) (call + 1)
            (n - min n burst)).chunks⟩ := by
  rw [waitLoop,dif_neg hn.ne',Nat.max_eq_left hb]

lemma waitLoop_chunks (hb : 0 < burst)
    (h : (waitLoop burst changes ended limiter call n).err = none) :
    (waitLoop burst changes ended limiter call n).chunks.sum = n := by
  induction n using Nat.strong_induction_on generalizing limiter call with
  | _ n ih =>
    rcases Nat.eq_zero_or_pos n with rfl | hn
    · rw [waitLoop_zero]
      rfl
    · rw [waitLoop_of_pos hb hn] at h ⊢
      cases hw : (limiter.applyAll (changes call)).wait (ended call) (min n burst) with
      | some err =>
        rw [hw] at h
        cases h
      | none =>
        rw [hw] at h
        have hr := ih (n - min n burst) (by omega) h
        simp only [List.sum_cons,hr]
        omega

def AdmitsAll (burst : ℕ) (states : ℕ → RateLimiter) (call n : ℕ) : Prop :=
  ∀ j, j * burst < n → (states (call + j)).Admits (min (n - j * burst) burst)

lemma AdmitsAll.head {states : ℕ → RateLimiter} (h : AdmitsAll burst states call n) (hn : 0 < n) :
    (states call).Admits (min n burst) := by
  simpa using h 0 (by simpa using hn)

lemma admitsAll_iff {states : ℕ → RateLimiter} (hb : 0 < burst) (hn : 0 < n) :
    AdmitsAll burst states call n ↔ (states call).Admits (min n burst) ∧
      AdmitsAll burst states (call + 1) (n - min n burst) := by
  constructor
  · intro h
    refine ⟨h.head hn,?_⟩
    intro j hj
    have hne := h (j + 1) (by rw [Nat.add_mul]; omega)
    have hca : call + (j + 1) = call + 1 + j := by omega
    have hl : n - (j + 1) * burst = n - min n burst - j * burst := by
      rw [Nat.add_mul]
      omega
    rwa [hca,hl] at hne
  · rintro ⟨hh,hr⟩ j hj
    cases j with
    | zero => simpa using hh
    | succ j =>
      rw [Nat.add_mul,Nat.one_mul] at hj
      have hne := hr j (by omega)
      have hca : call + 1 + j = call + (j + 1) := by omega
      have hl : n - min n burst - j * burst = n - (j + 1) * burst := by
        rw [Nat.add_mul]
        omega
      rwa [hca,hl] at hne

lemma waitLoop_err_of_admitsAll {states : ℕ → RateLimiter} (hb : 0 < burst)
    (hs : ∀ k,states (k + 1) = (states k).applyAll (changes (k + 1)))
    (hl : limiter.applyAll (changes call) = states call)
    (h : AdmitsAll burst states call n)
    (he : (waitLoop burst changes ended limiter call n).err ≠ none) :
    (waitLoop burst changes ended limiter call n).err = some .contextEnded ∧
      ∃ k,ended k = true := by
  induction n using Nat.strong_induction_on generalizing limiter call with
  | _ n ih =>
    rcases Nat.eq_zero_or_pos n with rfl | hn
    · rw [waitLoop_zero] at he
      exact absurd rfl he
    · obtain ⟨hh,hr⟩ := (admitsAll_iff hb hn).mp h
      rw [waitLoop_of_pos hb hn,hl,wait_of_admits hh] at he ⊢
      cases hen : ended call with
      | true => exact ⟨rfl,call,hen⟩
      | false =>
        rw [hen] at he
        exact ih (n - min n burst) (by omega) (hs call).symm hr he

lemma waitLoop_err_of_not_admitsAll {states : ℕ → RateLimiter} (hb : 0 < burst)
    (hs : ∀ k,states (k + 1) = (states k).applyAll (changes (k + 1)))
    (hl : limiter.applyAll (changes call) = states call)
    (h : ¬ AdmitsAll burst states call n) :
    (waitLoop burst changes (fun _ => false) limiter call n).err = some .exceedsBurst := by
  induction n using Nat.strong_induction_on generalizing limiter call with
  | _ n ih =>
    rcases Nat.eq_zero_or_pos n with rfl | hn
    · exact absurd (fun j hj => absurd hj (Nat.not_lt_zero _)) h
    · rw [waitLoop_of_pos hb hn,hl]
      by_cases hh : (states call).Admits (min n burst)
      · rw [wait_of_admits hh]
        refine ih (n - min n burst) (by omega) (hs call).symm ?_
        intro hr
        exact h ((admitsAll_iff hb hn).mpr ⟨hh,hr⟩)
      · rw [(wait_eq_exceedsBurst_iff _ _ _).mpr hh]

end Loop

lemma burstOf_pos (mbps : ℤ) : 0 < burstOf mbps := by
  unfold burstOf
  split_ifs with h
  · exact one_pos
  · exact not_le.mp h

/-- A wait fails for no other reason than the context, and waits for all its bytes, exactly when at
each of its calls the limiter is lifted or has not shrunk below the chunk, which is cut for the
burst at the start. -/
theorem waitN_fails_only_with_context_iff (mbps : ℤ) (limiter : RateLimiter)
    (hnew : newLimiter mbps = some limiter) (changes : ℕ → List Change) (n : ℕ) :
    (∀ ended, ((limiter.waitN changes ended n).err ≠ none →
        (limiter.waitN changes ended n).err = some .contextEnded ∧ ∃ k, ended k = true) ∧
      ((limiter.waitN changes ended n).err = none →
        (limiter.waitN changes ended n).chunks.sum = n)) ↔
    ∀ j, j * limiter.burst.toNat < n → (limiter.atCall changes j).limit = none ∨
        ((min (n - j * limiter.burst.toNat) limiter.burst.toNat : ℕ) : ℤ) ≤
          (limiter.atCall changes j).burst := by
  have hp : 0 < limiter.burst := by
    unfold newLimiter at hnew
    split_ifs at hnew
    cases hnew
    exact burstOf_pos mbps
  have hb : 0 < limiter.burst.toNat := by omega
  have hw : ∀ ended, limiter.waitN changes ended n =
      waitLoop limiter.burst.toNat changes ended limiter 0 n := by
    intro ended
    unfold waitN
    rw [if_neg (not_le.mpr hp)]
  have ha : (∀ j, j * limiter.burst.toNat < n → (limiter.atCall changes j).limit = none ∨
        ((min (n - j * limiter.burst.toNat) limiter.burst.toNat : ℕ) : ℤ) ≤
          (limiter.atCall changes j).burst) ↔
      AdmitsAll limiter.burst.toNat (limiter.atCall changes) 0 n := by
    simp only [AdmitsAll,Admits,Nat.zero_add]
  rw [ha]
  constructor
  · intro h
    by_contra hn
    have he := waitLoop_err_of_not_admitsAll hb (fun _ => rfl) rfl hn
    obtain ⟨hco,-⟩ := (h fun _ => false).1 (by rw [hw,he]; exact Option.some_ne_none _)
    rw [hw,he] at hco
    cases hco
  · intro h ended
    rw [hw]
    exact ⟨waitLoop_err_of_admitsAll hb (fun _ => rfl) rfl h,waitLoop_chunks hb⟩

def twoMbps : RateLimiter := ⟨some 250000,250000⟩

lemma newLimiter_two : newLimiter 2 = some twoMbps := by decide +kernel

lemma atCall_of_no_changes (limiter : RateLimiter) (call : ℕ) :
    limiter.atCall (fun _ => []) call = limiter := by
  induction call with
  | zero => rfl
  | succ call ih =>
    rw [atCall,ih]
    rfl

theorem unchanged_limiter_waits :
    newLimiter 2 = some twoMbps ∧ (twoMbps.waitN (fun _ => []) (fun _ => false) 600000).err = none ∧
      (twoMbps.waitN (fun _ => []) (fun _ => false) 600000).chunks.sum = 600000 := by
  have hw := (waitN_fails_only_with_context_iff 2 twoMbps newLimiter_two (fun _ => [])
    600000).mpr (fun j _ => .inr (by
      rw [atCall_of_no_changes]
      exact Int.ofNat_le.mpr (Nat.min_le_right _ 250000))) (fun _ => false)
  have he : (twoMbps.waitN (fun _ => []) (fun _ => false) 600000).err = none := by
    by_contra hne
    obtain ⟨-,k,hk⟩ := hw.1 hne
    cases hk
  exact ⟨newLimiter_two,he,hw.2 he⟩

def slowedDown (call : ℕ) : List Change := if call = 1 then [.setLimiterRate 1] else []

/-- A limiter that is set from 2 Mbps to 1 Mbps between two chunks of a wait ends the wait with an
error. -/
theorem slowed_limiter_breaks_wait : newLimiter 2 = some twoMbps ∧
      (twoMbps.waitN slowedDown (fun _ => false) 600000).err = some .exceedsBurst := by
  refine ⟨newLimiter_two,waitLoop_err_of_not_admitsAll (by decide)
    (fun _ => rfl) (rfl : _ = twoMbps.atCall slowedDown 0) ?_⟩
  intro ha
  have hsl : twoMbps.atCall slowedDown 1 = ⟨some 125000,125000⟩ := by decide +kernel
  have hs := ha 1 (by decide)
  rw [hsl] at hs
  rcases hs with hn | hle
  · cases hn
  · exact absurd hle (by decide)

end RateLimiter

end SingBoxAuth.SpeedLimiter
