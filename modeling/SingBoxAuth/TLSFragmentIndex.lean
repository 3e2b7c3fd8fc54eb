import SingBoxAuth.Outcomes

/-! Where the server name of a TLS client hello is, as the TLS fragmentation looks for it in what is
written first. The walk over the extensions goes on by a length of 16 bits. -/
namespace SingBoxAuth.TLSFragment
open Outcomes Outcome

abbrev Bytes := List UInt8

def supportedVersion (version : ℕ) : Bool := version &&& 0xFFFC = 0x0300 || version = 0x0304

def byteAt (b : Bytes) (i : ℕ) : ℕ := (b.getD i 0).toNat

def be16 (b : Bytes) (i : ℕ) : ℕ := byteAt b i * 256 + byteAt b (i + 1)

lemma byteAt_lt (b : Bytes) (i : ℕ) : byteAt b i < 256 := UInt8.toNat_lt _

lemma be16_lt (b : Bytes) (i : ℕ) : be16 b i < 65536 := by
  have hh := byteAt_lt b i
  have hl := byteAt_lt b (i + 1)
  unfold be16
  omega

def firstBody (exs : Bytes) : Bytes := (exs.drop 4).take (be16 exs 2)

/-- The bytes from the cipher suites on, and from the extensions on. -/
def suitesOf (hs : Bytes) : Bytes := hs.drop (39 + byteAt hs 38)

def methodsEnd (cs : Bytes) : ℕ := 2 + be16 cs 0 + 1 + byteAt cs (2 + be16 cs 0)

/-- The lengths of the suites and of the compression methods stay in the bytes. -/
structure AreSuites (cs : Bytes) : Prop where
  header : 2 ≤ cs.length
  suites : 2 + be16 cs 0 + 1 ≤ cs.length
  methods : methodsEnd cs ≤ cs.length

structure IsHello (hs : Bytes) : Prop where
  size : 39 ≤ hs.length
  type : byteAt hs 0 = 1
  length : hs.length - 4 = byteAt hs 1 * 65536 + be16 hs 2
  version : supportedVersion (be16 hs 4) = true
  session : 39 + byteAt hs 38 ≤ hs.length
  suites : AreSuites (suitesOf hs)

def extensionsOf (cs : Bytes) : Bytes := cs.drop (methodsEnd cs)

structure MyServerName where
  index : ℕ
  length : ℕ
  serverName : Bytes
  deriving DecidableEq

inductive WriteError
  | refused
  deriving DecidableEq

def uint16At (b : Bytes) (i : ℕ) : Outcome WriteError ℕ := do
  let high ← index b i
  let low ← index b (i + 1)
  .ok (high.toNat * 256 + low.toNat)

def extensionStep : ℕ × Bytes → Outcome WriteError ((ℕ × Bytes) ⊕ Option MyServerName)
  | (currentIndex,exs) =>
    if exs.length = 0 then .ok (.inr none)
    else if exs.length < 4 then .ok (.inr none)
    else do
      let exType ← uint16At exs 0
      let exLen ← uint16At exs 2
      if exs.length < 4 + exLen then .ok (.inr none)
      else do
        let sex ← slice exs 4 (4 + exLen)
        if exType = 0 then
          if sex.length < 5 then .ok (.inr none)
          else do
            let sniType ← index sex 2
            if sniType ≠ 0 then .ok (.inr none)
            else do
              let sniLen ← uint16At sex 3
              let sex ← sliceFrom sex 5
              .ok (.inr (some ⟨currentIndex + 4 + 5,sniLen,sex⟩))
        else do
          let exs ← sliceFrom exs ((4 + exLen) % 65536)
          .ok (.inl (currentIndex + 4 + exLen,exs))

def indexTLSServerNameFromExtensions (fuel : ℕ) (exs : Bytes) :
    Outcome WriteError (Option MyServerName) :=
  if exs.length = 0 then .ok none
  else if exs.length < 2 then .ok none
  else do
    let exsLen ← uint16At exs 0
    let exs ← sliceFrom exs 2
    if exs.length < exsLen then .ok none
    else loop extensionStep fuel (2,exs)

def MyServerName.shift (offset : ℕ) (serverName : MyServerName) : MyServerName :=
  { serverName with index := serverName.index + offset }

/-- The rest of the function below, from the cipher suites on. -/
def indexFromCipherSuites (fuel : ℕ) (handshake : Bytes) (currentIndex : ℕ) :
    Outcome WriteError (Option MyServerName) := do
  let cipherSuites ← sliceFrom handshake currentIndex
  if cipherSuites.length < 2 then .ok none
  else do
    let csLen ← uint16At cipherSuites 0
    if cipherSuites.length < 2 + csLen + 1 then .ok none
    else do
      let compressMethodLen ← index cipherSuites (2 + csLen)
      let currentIndex := currentIndex + (2 + csLen + 1 + compressMethodLen.toNat)
      if handshake.length < currentIndex then .ok none
      else do
        let exs ← sliceFrom handshake currentIndex
        let serverName ← indexTLSServerNameFromExtensions fuel exs
        .ok (serverName.map (.shift currentIndex))

def indexTLSServerNameFromHandshake (fuel : ℕ) (handshake : Bytes) :
    Outcome WriteError (Option MyServerName) :=
  if handshake.length < 6 + 32 + 1 then .ok none
  else do
    let handshakeType ← index handshake 0
    if handshakeType ≠ 1 then .ok none
    else do
      let first ← index handshake 1
      let rest ← uint16At handshake 2
      if handshake.length - 4 ≠ first.toNat * 65536 + rest then .ok none
      else do
        let tlsVersion ← uint16At handshake 4
        if supportedVersion tlsVersion = false then .ok none
        else do
          let sessionIDLen ← index handshake 38
          let currentIndex := 6 + 32 + 1 + sessionIDLen.toNat
          if handshake.length < currentIndex then .ok none
          else indexFromCipherSuites fuel handshake currentIndex

def indexTLSServerName (fuel : ℕ) (payload : Bytes) : Outcome WriteError (Option MyServerName) :=
  if payload.length < 5 then .ok none
  else do
    let contentType ← index payload 0
    if contentType ≠ 22 then .ok none
    else do
      let segmentLen ← uint16At payload 3
      if payload.length < 5 + segmentLen then .ok none
      else do
        let handshake ← sliceFrom payload 5
        let serverName ← indexTLSServerNameFromHandshake fuel handshake
        .ok (serverName.map (.shift 5))

/-! ### What the extensions lead to -/

/-- The walk comes to an extension whose length makes the next step none. -/
inductive Endless : Bytes → Prop
  | here {exs : Bytes} (whole : 4 + be16 exs 2 ≤ exs.length) (other : be16 exs 0 ≠ 0)
      (length : be16 exs 2 = 65532) : Endless exs
  | later {exs : Bytes} (whole : 4 + be16 exs 2 ≤ exs.length) (other : be16 exs 0 ≠ 0)
      (rest : Endless (exs.drop ((4 + be16 exs 2) % 65536))) : Endless exs

/-- The walk comes to a server name, after extensions of so many bytes. -/
inductive Named : Bytes → ℕ → Bytes → Prop
  | here {exs : Bytes} (whole : 4 + be16 exs 2 ≤ exs.length) (type : be16 exs 0 = 0)
      (size : 5 ≤ be16 exs 2) (hostName : byteAt (firstBody exs) 2 = 0) :
      Named exs 0 ((firstBody exs).drop 5)
  | later {exs name : Bytes} {skipped : ℕ} (whole : 4 + be16 exs 2 ≤ exs.length)
      (other : be16 exs 0 ≠ 0) (rest : Named (exs.drop ((4 + be16 exs 2) % 65536)) skipped name) :
      Named exs (4 + be16 exs 2 + skipped) name

section walk

variable {b exs name : Bytes} {i skipped : ℕ}

lemma uint16At_eq (h : i + 1 < b.length) : uint16At b i = .ok (be16 b i) := by
  rw [uint16At,index_eq_getD (by omega) 0,ok_bind,index_eq_getD h 0]
  rfl

lemma length_firstBody (h : 4 + be16 exs 2 ≤ exs.length) : (firstBody exs).length = be16 exs 2 := by
  rw [firstBody,List.length_take,List.length_drop]
  omega

lemma extensionStep_short (i : ℕ) (h : exs.length < 4 + be16 exs 2) :
    extensionStep (i,exs) = .ok (.inr none) := by
  by_cases hn : exs.length = 0
  · exact if_pos hn
  by_cases hl : exs.length < 4
  · exact (if_neg hn).trans (if_pos hl)
  · rw [extensionStep,if_neg hn,if_neg hl,uint16At_eq (by omega),ok_bind,
      uint16At_eq (by omega),ok_bind,if_pos h]

lemma extensionStep_other (i : ℕ) (hw : 4 + be16 exs 2 ≤ exs.length) (ho : be16 exs 0 ≠ 0) :
    extensionStep (i,exs) =
      .ok (.inl (i + 4 + be16 exs 2,exs.drop ((4 + be16 exs 2) % 65536))) := by
  have hmod := Nat.mod_le (4 + be16 exs 2) 65536
  rw [extensionStep,if_neg (by omega),if_neg (by omega),uint16At_eq (by omega),ok_bind,
    uint16At_eq (by omega),ok_bind,if_neg (by omega),slice_of_le (by omega) hw,ok_bind,
    if_neg ho,sliceFrom_of_le (by omega),ok_bind]

lemma extensionStep_name (i : ℕ) (hw : 4 + be16 exs 2 ≤ exs.length) (ht : be16 exs 0 = 0) :
    extensionStep (i,exs) =
      if be16 exs 2 < 5 ∨ byteAt (firstBody exs) 2 ≠ 0 then .ok (.inr none)
      else .ok (.inr (some ⟨i + 4 + 5,be16 (firstBody exs) 3,(firstBody exs).drop 5⟩)) := by
  rw [extensionStep,if_neg (by omega),if_neg (by omega),uint16At_eq (by omega),ok_bind,
    uint16At_eq (by omega),ok_bind,if_neg (by omega),slice_of_le (by omega) hw,ok_bind,
    if_pos ht,Nat.add_sub_cancel_left,← firstBody,length_firstBody hw]
  have hl := length_firstBody hw
  by_cases hs : be16 exs 2 < 5
  · rw [if_pos hs,if_pos (.inl hs)]
  rw [if_neg hs,index_eq_getD (by omega) 0,ok_bind]
  by_cases hh : (firstBody exs).getD 2 0 = 0
  · have hb : byteAt (firstBody exs) 2 = 0 := by
      rw [byteAt,hh]
      rfl
    rw [if_neg (not_not.mpr hh),uint16At_eq (by omega),ok_bind,sliceFrom_of_le (by omega),ok_bind,
      if_neg (not_or.mpr ⟨hs,not_not.mpr hb⟩)]
  · rw [if_pos hh,if_pos (.inr fun hb => hh (UInt8.toNat_inj.mp hb))]

lemma Endless.settles (h : Endless exs) (i : ℕ) :
    Settles (fun fuel => loop extensionStep fuel (i,exs)) .running := by
  induction h generalizing i with
  | @here exs whole other length =>
    refine ⟨0,fun fuel _ => ?_⟩
    -- The walk stays where it is, and only its index grows.
    induction fuel generalizing i with
    | zero => rfl
    | succ fuel ih =>
      have hs := extensionStep_other i whole other
      rw [length] at hs
      simp only [loop,hs,ok_bind]
      exact ih _ (Nat.zero_le _)
  | @later exs whole other rest ih =>
    exact settles_loop_of_next (extensionStep_other i whole other) (ih _)

lemma Named.settles (h : Named exs skipped name) (i : ℕ) :
    ∃ length,Settles (fun fuel => loop extensionStep fuel (i,exs))
      (.ok (some ⟨i + skipped + 9,length,name⟩)) := by
  induction h generalizing i with
  | @here exs whole type size hostName =>
    refine ⟨be16 (firstBody exs) 3,settles_loop_of_end ?_⟩
    rw [extensionStep_name i whole type,if_neg (by omega)]
    rfl
  | @later exs name skipped whole other rest ih =>
    obtain ⟨length,hl⟩ := ih (i + 4 + be16 exs 2)
    refine ⟨length,settles_loop_of_next (extensionStep_other i whole other) ?_⟩
    rwa [show i + (4 + be16 exs 2 + skipped) + 9 = i + 4 + be16 exs 2 + skipped + 9 by omega]

lemma walk_cases (exs : Bytes) : Endless exs ∨ (∃ skipped name,Named exs skipped name) ∨
    ∀ i,Settles (fun fuel => loop extensionStep fuel (i,exs)) (.ok none) := by
  induction hn : exs.length using Nat.strongRecOn generalizing exs with
  | _ n ih =>
    subst hn
    by_cases hw : 4 + be16 exs 2 ≤ exs.length
    · by_cases ho : be16 exs 0 = 0
      · by_cases hs : be16 exs 2 < 5 ∨ byteAt (firstBody exs) 2 ≠ 0
        · refine .inr (.inr fun i => settles_loop_of_end ?_)
          rw [extensionStep_name i hw ho,if_pos hs]
          rfl
        · rw [not_or,Nat.not_lt,not_not] at hs
          exact .inr (.inl ⟨_,_,.here hw ho hs.1 hs.2⟩)
      · by_cases hl : be16 exs 2 = 65532
        · exact .inl (.here hw ho hl)
        · have hlt := be16_lt exs 2
          have hsh : (exs.drop ((4 + be16 exs 2) % 65536)).length < exs.length := by
            rw [List.length_drop]
            omega
          obtain he | ⟨skipped,name,hna⟩ | hno := ih _ hsh _ rfl
          · exact .inl (.later hw ho he)
          · exact .inr (.inl ⟨_,_,.later hw ho hna⟩)
          · exact .inr (.inr fun i => settles_loop_of_next (extensionStep_other i hw ho) (hno _))
    · exact .inr (.inr fun i => settles_loop_of_end (extensionStep_short i (by omega)))

end walk

section hello

def extensionsAt (hs : Bytes) : ℕ := 39 + byteAt hs 38 + methodsEnd (suitesOf hs)

lemma drop_extensionsAt (hs : Bytes) : hs.drop (extensionsAt hs) = extensionsOf (suitesOf hs) := by
  rw [extensionsAt,extensionsOf,suitesOf,List.drop_drop]

/-- What is looked at as a hello with extensions: a record that is not cut, and behind its header
nothing but a hello. -/
structure HasExtensions (b : Bytes) : Prop where
  size : 5 ≤ b.length
  type : byteAt b 0 = 22
  length : 5 + be16 b 3 ≤ b.length
  hello : IsHello (b.drop 5)
  declared : 2 + be16 (extensionsOf (suitesOf (b.drop 5))) 0 ≤
    (extensionsOf (suitesOf (b.drop 5))).length

def walked (b : Bytes) : Bytes := (extensionsOf (suitesOf (b.drop 5))).drop 2

/-- The index for a name behind extensions of so many bytes. -/
def nameIndex (b : Bytes) (skipped : ℕ) : ℕ := 5 + extensionsAt (b.drop 5) + 2 + skipped + 9

lemma fromCipherSuites_cases {hs : Bytes} (h : 39 + byteAt hs 38 ≤ hs.length) :
    ¬AreSuites (suitesOf hs) ∧
      (∀ fuel,indexFromCipherSuites fuel hs (39 + byteAt hs 38) = .ok none) ∨
    AreSuites (suitesOf hs) ∧ ∀ fuel,indexFromCipherSuites fuel hs (39 + byteAt hs 38) =
      indexTLSServerNameFromExtensions fuel (extensionsOf (suitesOf hs)) >>= fun serverName =>
        .ok (serverName.map (.shift (extensionsAt hs))) := by
  have hl : (suitesOf hs).length = hs.length - (39 + byteAt hs 38) := List.length_drop
  unfold indexFromCipherSuites
  rw [sliceFrom_of_le h,← drop_extensionsAt,← suitesOf]
  simp only [ok_bind]
  by_cases hh : (suitesOf hs).length < 2
  · exact .inl ⟨fun h => absurd h.header (by omega),fun _ => if_pos hh⟩
  simp only [if_neg hh,uint16At_eq (show 0 + 1 < (suitesOf hs).length by omega),ok_bind]
  by_cases hs' : (suitesOf hs).length < 2 + be16 (suitesOf hs) 0 + 1
  · exact .inl ⟨fun h => absurd h.suites (by omega),fun _ => if_pos hs'⟩
  have hi : (index (suitesOf hs) (2 + be16 (suitesOf hs) 0) : Outcome WriteError UInt8) =
      .ok ((suitesOf hs).getD (2 + be16 (suitesOf hs) 0) 0) := index_eq_getD (by omega) 0
  have he : extensionsAt hs = 39 + byteAt hs 38 + (2 + be16 (suitesOf hs) 0 + 1 +
    ((suitesOf hs).getD (2 + be16 (suitesOf hs) 0) 0).toNat) := rfl
  simp only [if_neg hs',hi,ok_bind,← he]
  by_cases hm : hs.length < extensionsAt hs
  · refine .inl ⟨fun h => ?_,fun _ => if_pos hm⟩
    have hme := h.methods
    rw [extensionsAt] at hm
    omega
  · refine .inr ⟨⟨by omega,by omega,?_⟩,fun fuel => ?_⟩
    · rw [extensionsAt] at hm
      omega
    · rw [if_neg hm,sliceFrom_of_le (by omega),ok_bind]

lemma fromHandshake_cases (hs : Bytes) :
    ¬IsHello hs ∧ (∀ fuel,indexTLSServerNameFromHandshake fuel hs = .ok none) ∨
    IsHello hs ∧ ∀ fuel,indexTLSServerNameFromHandshake fuel hs =
      indexTLSServerNameFromExtensions fuel (extensionsOf (suitesOf hs)) >>= fun serverName =>
        .ok (serverName.map (.shift (extensionsAt hs))) := by
  unfold indexTLSServerNameFromHandshake
  by_cases hsi : hs.length < 39
  · exact .inl ⟨fun h => absurd h.size (by omega),fun _ => if_pos hsi⟩
  have hin : ∀ i,i < 39 → (index hs i : Outcome WriteError UInt8) = .ok (hs.getD i 0) :=
    fun i hi => index_eq_getD (by omega) 0
  have hb : ∀ i,(hs.getD i 0).toNat = byteAt hs i := fun _ => rfl
  simp only [if_neg hsi,hin 0 (by omega),ok_bind]
  by_cases ht : hs.getD 0 0 ≠ 1
  · exact .inl ⟨fun h => ht (UInt8.toNat_inj.mp h.type),fun fuel => if_pos ht⟩
  simp only [if_neg ht,hin 1 (by omega),uint16At_eq (show 2 + 1 < hs.length by omega),ok_bind,hb]
  by_cases hl : hs.length - 4 ≠ byteAt hs 1 * 65536 + be16 hs 2
  · exact .inl ⟨fun h => hl h.length,fun fuel => if_pos hl⟩
  simp only [if_neg hl,uint16At_eq (show 4 + 1 < hs.length by omega),ok_bind]
  by_cases hv : supportedVersion (be16 hs 4) = false
  · exact .inl ⟨fun h => by simp [h.version] at hv,fun fuel => if_pos hv⟩
  simp only [if_neg hv,hin 38 (by omega),ok_bind,hb]
  by_cases hse : hs.length < 39 + byteAt hs 38
  · exact .inl ⟨fun h => absurd h.session (by omega),fun fuel => if_pos hse⟩
  simp only [if_neg hse]
  obtain ⟨hn,hi⟩ | ⟨ha,hi⟩ := fromCipherSuites_cases (Nat.not_lt.mp hse)
  · exact .inl ⟨fun h => hn h.suites,hi⟩
  · refine .inr ⟨⟨by omega,?_,not_not.mp hl,?_,by omega,ha⟩,hi⟩
    · rw [byteAt,not_not.mp ht]
      rfl
    · rwa [Bool.not_eq_false] at hv

lemma fromExtensions_eq (fuel : ℕ) (exs : Bytes) : indexTLSServerNameFromExtensions fuel exs =
      if 2 + be16 exs 0 ≤ exs.length then loop extensionStep fuel (2,exs.drop 2) else .ok none := by
  unfold indexTLSServerNameFromExtensions
  by_cases hn : exs.length = 0
  · rw [if_pos hn,if_neg (by omega)]
  by_cases hl : exs.length < 2
  · rw [if_neg hn,if_pos hl,if_neg (by omega)]
  rw [if_neg hn,if_neg hl,uint16At_eq (by omega),ok_bind,sliceFrom_of_le (by omega),ok_bind,
    List.length_drop]
  by_cases hd : exs.length - 2 < be16 exs 0
  · rw [if_pos hd,if_neg (by omega)]
  · rw [if_neg hd,if_pos (by omega)]

lemma shift_shift (m n : ℕ) (x : Outcome WriteError (Option MyServerName)) :
    ((x >>= fun serverName => .ok (serverName.map (.shift m))) >>= fun serverName =>
      .ok (serverName.map (.shift n))) = x >>= fun serverName =>
        (.ok (serverName.map (.shift (n + m))) : Outcome WriteError (Option MyServerName)) := by
  cases x with
  | ok serverName =>
    cases serverName with
    | none => rfl
    | some serverName => simp [MyServerName.shift,Nat.add_assoc,Nat.add_comm m n]
  | error e => rfl
  | outOfRange => rfl
  | running => rfl

lemma indexTLSServerName_cases (b : Bytes) :
    ¬HasExtensions b ∧ (∀ fuel,indexTLSServerName fuel b = .ok none) ∨
    HasExtensions b ∧ ∀ fuel,indexTLSServerName fuel b =
      loop extensionStep fuel (2,walked b) >>= fun serverName =>
        .ok (serverName.map (.shift (5 + extensionsAt (b.drop 5)))) := by
  unfold indexTLSServerName
  by_cases hs : b.length < 5
  · exact .inl ⟨fun h => absurd h.size (by omega),fun _ => if_pos hs⟩
  have hi : (index b 0 : Outcome WriteError UInt8) = .ok (b.getD 0 0) := index_eq_getD (by omega) 0
  simp only [if_neg hs,hi,ok_bind]
  by_cases ht : b.getD 0 0 ≠ 22
  · exact .inl ⟨fun h => ht (UInt8.toNat_inj.mp h.type),fun _ => if_pos ht⟩
  have ht' : byteAt b 0 = 22 := by
    rw [byteAt,not_not.mp ht]
    rfl
  simp only [if_neg ht,uint16At_eq (show 3 + 1 < b.length by omega),ok_bind]
  by_cases hl : b.length < 5 + be16 b 3
  · exact .inl ⟨fun h => absurd h.length (by omega),fun _ => if_pos hl⟩
  simp only [if_neg hl,sliceFrom_of_le (Nat.not_lt.mp hs),ok_bind]
  obtain ⟨hn,hh⟩ | ⟨hh,he⟩ := fromHandshake_cases (b.drop 5)
  · refine .inl ⟨fun h => hn h.hello,fun fuel => ?_⟩
    rw [hh]
    rfl
  simp only [he,shift_shift,fromExtensions_eq]
  by_cases hd : 2 + be16 (extensionsOf (suitesOf (b.drop 5))) 0 ≤
      (extensionsOf (suitesOf (b.drop 5))).length
  · simp only [if_pos hd]
    exact .inr ⟨⟨by omega,ht',by omega,hh,hd⟩,fun fuel => rfl⟩
  · simp only [if_neg hd]
    exact .inl ⟨fun h => hd h.declared,fun fuel => rfl⟩

variable {b name : Bytes} {skipped : ℕ}

lemma settles_of_walk {x : Outcome WriteError (Option MyServerName)} (h : HasExtensions b)
    (hx : Settles (fun fuel => loop extensionStep fuel (2,walked b)) x) :
    Settles (fun fuel => indexTLSServerName fuel b) (x >>= fun serverName =>
      .ok (serverName.map (.shift (5 + extensionsAt (b.drop 5))))) := by
  obtain ⟨hn,-⟩ | ⟨-,he⟩ := indexTLSServerName_cases b
  · exact absurd h hn
  · simp only [he]
    exact hx.bind fun _ _ => .const _

lemma Named.index (hn : Named (walked b) skipped name) (h : HasExtensions b) :
    ∃ length,Settles (fun fuel => indexTLSServerName fuel b)
      (.ok (some ⟨nameIndex b skipped,length,name⟩)) := by
  obtain ⟨length,hl⟩ := hn.settles 2
  have hs := settles_of_walk h hl
  have hi : 2 + skipped + 9 + (5 + extensionsAt (b.drop 5)) = nameIndex b skipped := by
    rw [nameIndex]
    omega
  rw [ok_bind,Option.map_some,MyServerName.shift,hi] at hs
  exact ⟨length,hs⟩

/-- In what is shorter than 65536 bytes the name is where the index says. -/
lemma Named.located {exs : Bytes} (h : Named exs skipped name) (hl : exs.length < 65536) :
    (exs.drop (skipped + 9)).take name.length = name ∧ skipped + 9 + name.length ≤ exs.length := by
  induction h with
  | @here exs whole type size hostName =>
    have hb := be16_lt exs 2
    rw [List.length_drop,length_firstBody whole,firstBody,List.drop_take,List.drop_drop]
    exact ⟨by simp,by omega⟩
  | @later exs name skipped whole other rest ih =>
    rw [Nat.mod_eq_of_lt (by omega),List.length_drop,List.drop_drop] at ih
    obtain ⟨hi,hle⟩ := ih (by omega)
    refine ⟨?_,by omega⟩
    rwa [← Nat.add_assoc] at hi

end hello

end SingBoxAuth.TLSFragment
