import SingBoxAuth.BufferedReading

/-! Sniffing the first bytes of a stream: `PeekStream` reads once more as long as the sniffer asks for
more data, and gives it everything from the beginning each time. For the sniffers of SSH, BitTorrent
and RDP, when the result does not depend on how the bytes arrive. -/
namespace SingBoxAuth.StreamSniffing
open ByteReaders BufferedReading

inductive Protocol
  | ssh
  | bitTorrent
  | rdp
  deriving DecidableEq

structure Found where
  protocol : Protocol
  client : Option Bytes
  deriving DecidableEq

inductive SniffError
  | needMoreData
  | invalid
  deriving DecidableEq

inductive PeekError
  | readPayload
  | sniff (error : SniffError)
  deriving DecidableEq

/-- The loop from a read on. A read that fails ends it with the error so far. -/
def peekFrom (sniffer : List Bytes → Except SniffError Found) (buffers : List Bytes) :
    Bytes → PeekError → List Bytes → Except PeekError Found
  | _, e, [] => .error e
  | buffer, _, read :: reads =>
    match sniffer (buffers ++ [buffer ++ read]) with
    | .ok found => .ok found
    | .error .needMoreData =>
      peekFrom sniffer buffers (buffer ++ read) (.sniff .needMoreData) reads
    | .error .invalid => .error (.sniff .invalid)

/-- The sniffer reads the cached buffers and the one that is filled through a `MultiReader`. -/
def peekStream (sniffer : List Bytes → Except SniffError Found) (buffers reads : List Bytes) :
    Except PeekError Found :=
  peekFrom sniffer buffers [] .readPayload reads

section sniffers

/-- SSH-2.0- -/
def sshPrefix : Bytes := [83,83,72,45,50,46,48,45]

/-- The reads of a `bufio.Reader`, with a buffer of 4096 bytes, until it has what it looks for. -/
def fillUntil (enough : Bytes → Bool) : Bytes → List Bytes → Bytes × List Bytes
  | buf, [] => (buf,[])
  | buf, chunk :: rest =>
    if enough buf || 4096 ≤ buf.length then (buf,chunk :: rest)
    else if 4096 < buf.length + chunk.length then
      (buf ++ chunk.take (4096 - buf.length),chunk.drop (4096 - buf.length) :: rest)
    else fillUntil enough (buf ++ chunk) rest

def stripCR (line : Bytes) : Bytes := if line.getLast? = some 13 then line.dropLast else line

/-- The line in the buffer: up to the line end, or all of the buffer if it is full, or all there
is. -/
def readLine (buf : Bytes) : Bytes :=
  if 10 ∈ buf ∨ 4096 ≤ buf.length then stripCR (buf.takeWhile (· ≠ 10)) else buf

def ssh (reader : List Bytes) : Except SniffError Found :=
  let (buf,reader) := fillUntil (fun buf => 8 ≤ buf.length) [] reader
  let start := buf.take 8
  if start ≠ sshPrefix.take start.length then .error .invalid
  else if start.length < 8 then .error .needMoreData
  else
    let (buf,_) := fillUntil (fun buf => buf.contains 10) buf reader
    .ok ⟨.ssh,some ((readLine buf).drop 8)⟩

/-- BitTorrent protocol -/
def header : Bytes :=
  [66,105,116,84,111,114,114,101,110,116,32,112,114,111,116,111,99,111,108]

/-- One call of Read: what is left of the current buffer, or of the next one with something in it. -/
def readOnce (n : ℕ) : Bytes → List Bytes → Option Bytes
  | [], [] => none
  | [], chunk :: rest => readOnce n chunk rest
  | x :: buf, _ => some ((x :: buf).take n)

def bitTorrent (reader : List Bytes) : Except SniffError Found :=
  match BufReader.readByteFrom [] reader with
  | none => .error .needMoreData
  | some (first,reader) =>
    if first ≠ 19 then .error .invalid
    else
      let protocol := readOnce 19 reader.buffered reader.pending
      let n := (protocol.getD []).length
      if protocol.getD [] ≠ header.take n then .error .invalid
      else if protocol = none then .error .needMoreData
      else if n < 19 then .error .needMoreData
      else .ok ⟨.bitTorrent,none⟩

/-- A byte that the source reads and compares. -/
def expect (value : UInt8) (next : Demand SniffError Found) : Demand SniffError Found :=
  .byte .needMoreData fun x => if x ≠ value then .fail .invalid else next

def skipN : ℕ → Demand SniffError Found → Demand SniffError Found
  | 0, next => next
  | n + 1, next => .byte .needMoreData fun _ => skipN n next

def rdpDemand : Demand SniffError Found :=
  expect 0x03 <| -- tpktVersion
  expect 0x00 <| -- tpktReserved
  .byte .needMoreData fun high => .byte .needMoreData fun low =>
  if high.toNat * 256 + low.toNat ≠ 19 then .fail .invalid -- tpktLength
  else
    expect 14 <| -- cotpLength
    expect 0xE0 <| -- cotpTpduType
    skipN 5 <|
    expect 0x01 <| -- rdpType
    .byte .needMoreData fun _ => -- rdpFlags
    expect 8 <| -- rdpLength
    .done ⟨.rdp,none⟩

def rdp (reader : List Bytes) : Except SniffError Found :=
  (rdpDemand.run ⟨[],reader⟩).map Prod.fst

def Protocol.sniffer : Protocol → List Bytes → Except SniffError Found
  | .ssh => StreamSniffing.ssh
  | .bitTorrent => StreamSniffing.bitTorrent
  | .rdp => StreamSniffing.rdp

end sniffers

section loop

variable {sniffer : List Bytes → Except SniffError Found} {buffers reads : List Bytes}
  {buffer : Bytes} {e : PeekError} {found : Found}

/-- Every look before the last one finds it or asks for more, and the last one finds it. -/
lemma peekFrom_eq_ok (hr : reads ≠ []) (h : ∀ front back,front ≠ [] → front ++ back = reads →
      sniffer (buffers ++ [buffer ++ front.flatten]) = .ok found ∨
        back ≠ [] ∧ sniffer (buffers ++ [buffer ++ front.flatten]) = .error .needMoreData) :
    peekFrom sniffer buffers buffer e reads = .ok found := by
  induction reads generalizing buffer e with
  | nil => exact absurd rfl hr
  | cons read reads ih =>
    rw [peekFrom]
    have hf := h [read] reads (by simp) rfl
    rw [List.flatten_singleton] at hf
    obtain hf | ⟨hb,hf⟩ := hf
    · rw [hf]
    · rw [hf]
      refine ih hb fun front back hne heq => ?_
      have hn := h (read :: front) back (by simp) (by rw [← heq]; rfl)
      rwa [List.flatten_cons,← List.append_assoc] at hn

lemma peekFrom_ne_ok (h : ∀ front back,front ++ back = reads →
      sniffer (buffers ++ [buffer ++ front.flatten]) ≠ .ok found) :
    peekFrom sniffer buffers buffer e reads ≠ .ok found := by
  induction reads generalizing buffer e with
  | nil => simp [peekFrom]
  | cons read reads ih =>
    rw [peekFrom]
    have hf := h [read] reads rfl
    rw [List.flatten_singleton] at hf
    split
    · rename_i found' hs
      intro heq
      cases heq
      exact hf hs
    · refine ih fun front back heq => ?_
      have hn := h (read :: front) back (by rw [← heq]; rfl)
      rwa [List.flatten_cons,← List.append_assoc] at hn
    · simp

lemma peekStream_one {b : Bytes} (h : peekStream sniffer [] [b] = .ok found) :
    sniffer [b] = .ok found := by
  rw [peekStream,peekFrom,List.nil_append,List.nil_append] at h
  split at h
  · rename_i found' hs
    cases h
    exact hs
  · cases h
  · cases h

end loop

section rdp

lemma expect_asks {value : UInt8} {next : Demand SniffError Found} (h : next.Asks .needMoreData) :
    (expect value next).Asks .needMoreData := by
  refine ⟨rfl,fun x => ?_⟩
  dsimp only
  split
  · trivial
  · exact h

lemma rdpDemand_asks : rdpDemand.Asks .needMoreData := by
  refine expect_asks (expect_asks ⟨rfl,fun high => ⟨rfl,fun low => ?_⟩⟩)
  dsimp only
  split
  · trivial
  · refine expect_asks (expect_asks ⟨rfl,fun _ => ⟨rfl,fun _ => ⟨rfl,fun _ => ⟨rfl,fun _ =>
      ⟨rfl,fun _ => ?_⟩⟩⟩⟩⟩)
    exact expect_asks ⟨rfl,fun _ => expect_asks trivial⟩

lemma rdp_eq (reader : List Bytes) :
    rdp reader = (rdpDemand.parse reader.flatten).map Prod.fst := rdpDemand.run_eq_parse ⟨[],reader⟩

lemma rdp_look {looked whole : List Bytes} {more : Bytes} {found : Found}
    (hw : whole.flatten = looked.flatten ++ more) (h : rdp whole = .ok found) :
    rdp looked = .ok found ∨ more ≠ [] ∧ rdp looked = .error .needMoreData := by
  rw [rdp_eq,hw] at h
  rw [rdp_eq]
  cases hp : rdpDemand.parse (looked.flatten ++ more) with
  | error e =>
    rw [hp] at h
    cases h
  | ok result =>
    rw [hp] at h
    cases h
    obtain ⟨rest,hr⟩ | hr := Demand.parse_beginning rdpDemand_asks hp
    · exact .inl (by rw [hr]; rfl)
    · refine .inr ⟨?_,by rw [hr]; rfl⟩
      rintro rfl
      rw [List.append_nil,hr] at hp
      cases hp

end rdp

section ssh

lemma fillUntil_spec (enough : Bytes → Bool) (buf : Bytes) (rest : List Bytes)
    (hb : buf.length ≤ 4096) :
    (fillUntil enough buf rest).1 ++ (fillUntil enough buf rest).2.flatten = buf ++ rest.flatten ∧
    (fillUntil enough buf rest).1.length ≤ 4096 ∧
    (enough (fillUntil enough buf rest).1 = true ∨ (fillUntil enough buf rest).1.length = 4096 ∨
      (fillUntil enough buf rest).2.flatten = []) := by
  induction rest generalizing buf with
  | nil => exact ⟨rfl,hb,.inr (.inr rfl)⟩
  | cons chunk rest ih =>
    rw [fillUntil]
    split
    · rename_i he
      refine ⟨rfl,hb,?_⟩
      rw [Bool.or_eq_true,decide_eq_true_eq] at he
      exact he.imp_right fun h => .inl (Nat.le_antisymm hb h)
    · split
      · refine ⟨?_,?_,.inr (.inl ?_)⟩
        · rw [List.flatten_cons,List.flatten_cons,List.append_assoc,
            ← List.append_assoc _ _ rest.flatten,
            List.take_append_drop]
        · rw [List.length_append,List.length_take]
          omega
        · rw [List.length_append,List.length_take]
          omega
      · have hb' : (buf ++ chunk).length ≤ 4096 := by
          rw [List.length_append]
          omega
        rw [List.flatten_cons,← List.append_assoc]
        exact ih _ hb'

lemma takeWhile_of_not_mem {l : Bytes} (h : 10 ∉ l) : l.takeWhile (· ≠ 10) = l := by
  rw [← List.append_nil l,List.takeWhile_append_of_pos,List.takeWhile_nil]
  exact fun x hx => decide_eq_true fun he => h (he ▸ hx)

lemma takeWhile_of_line {l b : Bytes} (hl : 10 ∉ l) (h : l ++ [10] <+: b) :
    b.takeWhile (· ≠ 10) = l := by
  obtain ⟨rest,rfl⟩ := h
  rw [List.append_assoc,List.takeWhile_append_of_pos]
  · simp
  · exact fun x hx => decide_eq_true fun he => hl (he ▸ hx)

lemma exists_line {b : Bytes} (h : 10 ∈ b) : 10 ∉ b.takeWhile (· ≠ 10) ∧
    b.takeWhile (· ≠ 10) ++ [10] <+: b := by
  induction b with
  | nil => cases h
  | cons x b ih =>
    by_cases hx : x = 10
    · subst hx
      simp
    · obtain ⟨hn,hp⟩ := ih ((List.mem_cons.mp h).resolve_left (Ne.symm hx))
      rw [List.takeWhile_cons_of_pos (by simpa using hx)]
      refine ⟨fun hm => ?_,List.prefix_cons_inj x |>.mpr hp⟩
      exact (List.mem_cons.mp hm).elim (fun he => hx he.symm) hn

lemma readLine_of_start {b s : Bytes} (hp : b <+: s) (hl : b.length ≤ 4096)
    (h : 10 ∈ b ∨ b.length = 4096 ∨ b = s) : readLine b = readLine (s.take 4096) := by
  have hpt : b <+: s.take 4096 := List.prefix_take_iff.mpr ⟨hp,hl⟩
  rcases h with h | h | rfl
  · obtain ⟨hn,hline⟩ := exists_line h
    have ht : (s.take 4096).takeWhile (· ≠ 10) = b.takeWhile (· ≠ 10) :=
      takeWhile_of_line hn (hline.trans hpt)
    rw [readLine,readLine,if_pos (.inl h),if_pos (.inl (hpt.subset h)),ht]
  · rw [hpt.eq_of_length (by rw [List.length_take,h]; have := hp.length_le; omega)]
  · rw [List.take_of_length_le hl]

lemma ssh_eq (reader : List Bytes) : ssh reader =
      if reader.flatten.take 8 ≠ sshPrefix.take (reader.flatten.take 8).length then .error .invalid
      else if reader.flatten.length < 8 then .error .needMoreData
      else .ok ⟨.ssh,some ((readLine (reader.flatten.take 4096)).drop 8)⟩ := by
  have h₁ := fillUntil_spec (fun buf => 8 ≤ buf.length) [] reader (Nat.zero_le 4096)
  rw [ssh]
  generalize fillUntil (fun buf => 8 ≤ buf.length) [] reader = filled at h₁ ⊢
  obtain ⟨buf,rest⟩ := filled
  obtain ⟨heq,hl,hd⟩ := h₁
  rw [List.nil_append] at heq
  dsimp only at heq hl hd ⊢
  have ht : buf.take 8 = reader.flatten.take 8 := by
    rw [← heq]
    by_cases h8 : 8 ≤ buf.length
    · rw [List.take_append_of_le_length h8]
    · have hr : rest.flatten = [] := (hd.resolve_left (by simpa using h8)).resolve_left (by omega)
      rw [hr,List.append_nil]
  rw [ht]
  refine if_congr Iff.rfl rfl ?_
  refine if_congr ?_ rfl ?_
  · rw [List.length_take]
    omega
  have h₂ := fillUntil_spec (fun buf => buf.contains 10) buf rest hl
  generalize fillUntil (fun buf => buf.contains 10) buf rest = filled at h₂ ⊢
  obtain ⟨buf',rest'⟩ := filled
  obtain ⟨heq',hl',hd'⟩ := h₂
  dsimp only at heq' hl' hd' ⊢
  rw [heq] at heq'
  rw [readLine_of_start ⟨_,heq'⟩ hl']
  refine hd'.imp (by simp) (.imp_right fun hr => ?_)
  rwa [hr,List.append_nil] at heq'

/-- What has arrived when the sniffer first has eight bytes to look at. -/
def firstLook : Bytes → List Bytes → Option Bytes
  | _, [] => none
  | arrived, read :: reads =>
    if 8 ≤ (arrived ++ read).length then some (arrived ++ read) else firstLook (arrived ++ read) reads

lemma ssh_of_start {reader : List Bytes} (h : reader.flatten.take 8 <+: sshPrefix) :
    ssh reader = if reader.flatten.length < 8 then .error .needMoreData
      else .ok ⟨.ssh,some ((readLine (reader.flatten.take 4096)).drop 8)⟩ := by
  rw [ssh_eq,if_neg (not_not.mpr (List.prefix_iff_eq_take.mp h))]

lemma peekFrom_ssh {buffers reads : List Bytes} {buffer : Bytes} {e : PeekError}
    (hr : reads ≠ []) (h : sshPrefix <+: buffers.flatten ++ buffer ++ reads.flatten) :
    ∃ looked,firstLook (buffers.flatten ++ buffer) reads = some looked ∧
      looked <+: buffers.flatten ++ buffer ++ reads.flatten ∧ 8 ≤ looked.length ∧
      peekFrom ssh buffers buffer e reads =
        .ok ⟨.ssh,some ((readLine (looked.take 4096)).drop 8)⟩ := by
  induction reads generalizing buffer e with
  | nil => exact absurd rfl hr
  | cons read reads ih =>
    have hf : (buffers ++ [buffer ++ read]).flatten = buffers.flatten ++ buffer ++ read := by simp
    have hw : buffers.flatten ++ buffer ++ (read :: reads).flatten =
        buffers.flatten ++ (buffer ++ read) ++ reads.flatten := by simp
    have hp : (buffers.flatten ++ buffer ++ read).take 8 <+: sshPrefix := by
      rw [hw,← List.append_assoc] at h
      have ht : (buffers.flatten ++ buffer ++ read).take 8 <+: buffers.flatten ++ buffer ++ read :=
        List.take_prefix ..
      exact List.prefix_of_prefix_length_le (ht.trans (List.prefix_append ..)) h
        (List.length_take_le ..)
    rw [peekFrom,firstLook,ssh_of_start (hf ▸ hp),hf]
    by_cases h8 : 8 ≤ (buffers.flatten ++ buffer ++ read).length
    · rw [if_pos h8,if_neg (by omega)]
      refine ⟨_,rfl,?_,h8,rfl⟩
      rw [hw,← List.append_assoc]
      exact List.prefix_append ..
    · rw [if_neg h8,if_pos (by omega)]
      have hne : reads ≠ [] := by
        rintro rfl
        rw [hw,List.flatten_nil,List.append_nil,← List.append_assoc] at h
        exact h8 h.length_le
      rw [hw] at h ⊢
      rw [List.append_assoc buffers.flatten]
      exact ih hne h

/-- The first look ends with the first line, before or behind its end; a line ends at the latest
where the buffer does. -/
inductive WholeLine (looked all : Bytes) : Prop
  | newline (within : 10 ∈ looked.take 4096)
  | full (full : 4096 ≤ looked.length)
  | nothingMore (same : looked = all)
  | beforeLF (next : looked ++ [10] <+: all) (last : looked.getLast? ≠ some 13)
  | beforeCRLF (next : looked ++ [13,10] <+: all)
  | beforeCR (next : looked ++ [13] <+: all) (full : looked.length = 4095)

lemma stripCR_eq_iff {line l : Bytes} :
    stripCR line = l ↔ line = l ∧ l.getLast? ≠ some 13 ∨ line = l ++ [13] := by
  unfold stripCR
  split
  · rename_i h
    constructor
    · rintro rfl
      exact .inr (List.dropLast_append_getLast? 13 h).symm
    · rintro (⟨rfl,hn⟩ | rfl)
      · exact absurd h hn
      · exact List.dropLast_concat
  · rename_i h
    constructor
    · rintro rfl
      exact .inl ⟨rfl,h⟩
    · rintro (⟨rfl,-⟩ | rfl)
      · rfl
      · exact absurd List.getLast?_concat h

lemma readLine_eq_iff {looked all : Bytes} (hp : looked <+: all) :
    readLine (looked.take 4096) = readLine (all.take 4096) ↔ WholeLine looked all := by
  have hlt : looked.take 4096 <+: looked := List.take_prefix ..
  by_cases hn : 10 ∈ looked.take 4096
  · exact iff_of_true (readLine_of_start (hlt.trans hp) (List.length_take_le ..) (.inl hn))
      (.newline hn)
  by_cases hf : 4096 ≤ looked.length
  · exact iff_of_true (readLine_of_start (hlt.trans hp) (List.length_take_le ..)
      (.inr (.inl (List.length_take_of_le hf)))) (.full hf)
  rw [List.take_of_length_le (by omega)] at hn ⊢
  have hline : readLine looked = looked := if_neg fun h => h.elim hn hf
  have ht : all.take 4096 <+: all := List.take_prefix ..
  have hl : (all.take 4096).length ≤ 4096 := List.length_take_le ..
  -- A line end inside the first 4096 bytes, or at their end.
  have hlf : ∀ line,line ++ [10] <+: all → 10 ∉ line → line.length < 4096 →
      readLine (all.take 4096) = stripCR line := by
    intro line hnext hni hlt
    have hpre : line ++ [10] <+: all.take 4096 :=
      List.prefix_take_iff.mpr ⟨hnext,by rw [List.length_append]; exact hlt⟩
    rw [readLine,if_pos (.inl (hpre.subset (by simp))),takeWhile_of_line hni hpre]
  have hcr : looked ++ [13] <+: all → looked.length = 4095 → readLine (all.take 4096) = looked := by
    intro hnext hlen
    have hpre : looked ++ [13] <+: all.take 4096 :=
      List.prefix_take_iff.mpr ⟨hnext,by rw [List.length_append,hlen]; rfl⟩
    have heq : looked ++ [13] = all.take 4096 :=
      hpre.eq_of_length_le (by rw [List.length_append,hlen]; exact hl)
    rw [← heq,readLine,if_pos (.inr (by rw [List.length_append,hlen]; decide)),
      takeWhile_of_not_mem (by simpa using hn)]
    exact stripCR_eq_iff.mpr (.inr rfl)
  rw [hline,eq_comm]
  constructor
  · intro h
    rw [readLine] at h
    split at h
    · rename_i hend
      by_cases hin : 10 ∈ all.take 4096
      · obtain ⟨-,hpre⟩ := exists_line hin
        obtain ⟨heq,hlast⟩ | heq := stripCR_eq_iff.mp h
        · exact .beforeLF (heq ▸ hpre.trans ht) hlast
        · rw [heq,List.append_assoc] at hpre
          exact .beforeCRLF (hpre.trans ht)
      · have h4096 := hend.resolve_left hin
        rw [takeWhile_of_not_mem hin] at h
        obtain ⟨heq,-⟩ | heq := stripCR_eq_iff.mp h
        · rw [heq] at h4096
          exact absurd h4096 hf
        · rw [heq,List.length_append,List.length_singleton] at h4096 hl
          exact .beforeCR (heq ▸ ht) (by omega)
    · rename_i hend
      refine .nothingMore (h.symm.trans (List.take_of_length_le ?_))
      have hlt : (all.take 4096).length < 4096 := Nat.not_le.mp fun h => hend (.inr h)
      rw [List.length_take] at hlt
      omega
  · rintro (h | h | rfl | ⟨hnext,hlast⟩ | hnext | ⟨hnext,hlen⟩)
    · rw [List.take_of_length_le (by omega)] at h
      exact absurd h hn
    · exact absurd h hf
    · rw [List.take_of_length_le (by omega),hline]
    · rw [hlf looked hnext hn (by omega)]
      exact stripCR_eq_iff.mpr (.inl ⟨rfl,hlast⟩)
    · by_cases hlen : looked.length = 4095
      · refine hcr (List.IsPrefix.trans ?_ hnext) hlen
        exact ⟨[10],by simp⟩
      · rw [hlf (looked ++ [13]) (by simpa using hnext) (by simpa using hn)
          (by rw [List.length_append,List.length_singleton]; omega)]
        exact stripCR_eq_iff.mpr (.inr rfl)
    · exact hcr hnext hlen

lemma prefix_readLine {all : Bytes} (h : sshPrefix <+: all) :
    sshPrefix <+: readLine (all.take 4096) := by
  obtain ⟨rest,hrest⟩ : sshPrefix <+: all.take 4096 := List.prefix_take_iff.mpr ⟨h,by decide⟩
  rw [← hrest,readLine]
  split
  · rw [List.takeWhile_append_of_pos (by decide +kernel)]
    obtain ⟨heq,-⟩ | heq := stripCR_eq_iff.mp (Eq.refl (stripCR (sshPrefix ++ rest.takeWhile (· ≠ 10))))
    · rw [← heq]
      exact List.prefix_append ..
    · have hp : sshPrefix <+: sshPrefix ++ rest.takeWhile (· ≠ 10) := List.prefix_append ..
      rw [heq] at hp
      refine (List.prefix_concat_iff.mp hp).resolve_left fun hc => ?_
      have hl := congrArg List.getLast? hc
      rw [List.getLast?_concat] at hl
      cases hl
  · exact List.prefix_append ..

lemma client_eq_iff {looked all : Bytes} (hl : sshPrefix <+: looked) (hp : looked <+: all) :
    (readLine (looked.take 4096)).drop 8 = (readLine (all.take 4096)).drop 8 ↔
      WholeLine looked all := by
  rw [← readLine_eq_iff hp]
  obtain ⟨u,hu⟩ := prefix_readLine hl
  obtain ⟨v,hv⟩ := prefix_readLine (hl.trans hp)
  rw [← hu,← hv,List.append_cancel_left_eq]
  rfl

lemma ssh_one {b : Bytes} {found : Found} (h : ssh [b] = .ok found) :
    sshPrefix <+: b ∧ found = ⟨.ssh,some ((readLine (b.take 4096)).drop 8)⟩ := by
  rw [ssh_eq,List.flatten_singleton] at h
  split at h
  · cases h
  rename_i hp
  split at h
  · cases h
  rename_i hl
  cases h
  refine ⟨?_,rfl⟩
  have heq := not_not.mp hp
  rw [List.length_take,Nat.min_eq_left (by omega)] at heq
  exact ⟨b.drop 8,by rw [← List.take_append_drop 8 b,heq]; rfl⟩

end ssh

section bitTorrent

/-- Something ends after so many of the bytes that are left. -/
def Boundary (r : BufReader) (p : ℕ) : Prop :=
  ∃ k, p = r.buffered.length + (r.pending.take k).flatten.length

lemma boundary_skip {chunk : Bytes} {rest : List Bytes} {p : ℕ} (hp : 0 < p) :
    Boundary ⟨[],chunk :: rest⟩ p ↔ Boundary ⟨chunk,rest⟩ p := by
  constructor
  · rintro ⟨k,rfl⟩
    cases k with
    | zero => exact absurd hp (by simp)
    | succ k => exact ⟨k,by simp⟩
  · rintro ⟨k,rfl⟩
    exact ⟨k + 1,by simp⟩

lemma boundary_readByteFrom {buffered : Bytes} {pending : List Bytes} {x : UInt8} {r : BufReader}
    (h : BufReader.readByteFrom buffered pending = some (x,r)) (p : ℕ) :
    Boundary r p ↔ Boundary ⟨buffered,pending⟩ (p + 1) := by
  induction pending generalizing buffered with
  | nil =>
    cases buffered with
    | nil => cases h
    | cons y rest =>
      cases h
      exact exists_congr fun k => by simp only [List.length_cons]; omega
  | cons chunk pending ih =>
    cases buffered with
    | nil => exact (ih h).trans (boundary_skip (by omega)).symm
    | cons y rest =>
      cases h
      exact exists_congr fun k => by simp only [List.length_cons]; omega

lemma readOnce_spec (n : ℕ) {buffered : Bytes} {pending : List Bytes}
    (h : buffered ++ pending.flatten ≠ []) :
    ∃ d,readOnce n buffered pending = some (d.take n) ∧ d ≠ [] ∧
      d <+: buffered ++ pending.flatten ∧ Boundary ⟨buffered,pending⟩ d.length ∧
      ∀ p,0 < p → Boundary ⟨buffered,pending⟩ p → d.length ≤ p := by
  induction pending generalizing buffered with
  | nil =>
    cases buffered with
    | nil => exact absurd rfl h
    | cons y rest =>
      refine ⟨y :: rest,rfl,by simp,List.prefix_append ..,⟨0,by simp⟩,?_⟩
      rintro p - ⟨k,rfl⟩
      simp
  | cons chunk pending ih =>
    cases buffered with
    | nil =>
      obtain ⟨d,hr,hd,hp,hb,hle⟩ := ih h
      refine ⟨d,hr,hd,hp,(boundary_skip (List.length_pos_iff.mpr hd)).mpr hb,fun p hp hb => ?_⟩
      exact hle p hp ((boundary_skip hp).mp hb)
    | cons y rest =>
      refine ⟨y :: rest,rfl,by simp,List.prefix_append ..,⟨0,by simp⟩,?_⟩
      rintro p - ⟨k,rfl⟩
      exact Nat.le_add_right ..

lemma readOnce_nil (n : ℕ) {pending : List Bytes} (h : pending.flatten = []) :
    readOnce n [] pending = none := by
  induction pending with
  | nil => rfl
  | cons chunk pending ih =>
    obtain ⟨rfl,hp⟩ := List.append_eq_nil_iff.mp h
    exact ih hp

lemma bitTorrent_look {reader : List Bytes} {more : Bytes}
    (h : reader.flatten <+: 19 :: (header ++ more)) :
    ∃ d,(bitTorrent reader = if d < 19 then .error .needMoreData else .ok ⟨.bitTorrent,none⟩) ∧
      (d < 19 ∧ reader.flatten.length ≤ 1 ∨
        1 ≤ d ∧ Boundary ⟨[],reader⟩ (d + 1) ∧ ∀ p,2 ≤ p → Boundary ⟨[],reader⟩ p → d < p) := by
  have hr := BufReader.readByteFrom_eq [] reader
  rw [List.nil_append] at hr
  rw [bitTorrent]
  cases hf : BufReader.readByteFrom [] reader with
  | none =>
    rw [hf] at hr
    refine ⟨0,rfl,.inl ⟨by decide,?_⟩⟩
    cases hc : reader.flatten with
    | nil => simp
    | cons x t => simp [hc] at hr
  | some result =>
    obtain ⟨x,r⟩ := result
    cases hc : reader.flatten with
    | nil => simp [hf,hc] at hr
    | cons y t =>
      rw [hc] at h
      obtain ⟨rfl,ht⟩ := List.cons_prefix_cons.mp h
      simp only [hf,hc,Option.map_some,Option.some.injEq,Prod.mk.injEq] at hr
      obtain ⟨rfl,rfl⟩ := hr
      dsimp only
      rw [if_neg (by simp)]
      by_cases hn : r.content = []
      · obtain ⟨hb,hp⟩ := List.append_eq_nil_iff.mp hn
        refine ⟨0,?_,.inl ⟨by decide,by simp [hn]⟩⟩
        rw [hb,readOnce_nil 19 hp]
        rfl
      · obtain ⟨d,hd,hne,hp,hb,hle⟩ := readOnce_spec 19 hn
        refine ⟨d.length,?_,.inr ⟨List.length_pos_iff.mpr hne,?_,fun p h2 hbp => ?_⟩⟩
        · have hdt : d.take 19 <+: d := List.take_prefix ..
          have hh : d.take 19 <+: header :=
            List.prefix_of_prefix_length_le ((hdt.trans hp).trans ht) (List.prefix_append ..)
              (List.length_take_le ..)
          rw [hd,Option.getD_some,if_neg (not_not.mpr (List.prefix_iff_eq_take.mp hh)),
            if_neg (by simp)]
          refine if_congr ?_ rfl rfl
          rw [List.length_take]
          omega
        · exact (boundary_readByteFrom hf d.length).mp hb
        · obtain ⟨p,rfl⟩ := Nat.exists_eq_add_of_le' (Nat.le_of_succ_le h2)
          have hlt := hle p (by omega) ((boundary_readByteFrom hf p).mpr hbp)
          omega

lemma bitTorrent_one {b : Bytes} {found : Found} (h : bitTorrent [b] = .ok found) :
    found = ⟨.bitTorrent,none⟩ ∧ ∃ more,b = 19 :: (header ++ more) := by
  cases b with
  | nil => cases h
  | cons first t =>
    rw [bitTorrent,BufReader.readByteFrom,BufReader.readByteFrom] at h
    dsimp only at h
    split at h
    · cases h
    rename_i hf
    obtain rfl := not_not.mp hf
    cases t with
    | nil => cases h
    | cons x t =>
      rw [readOnce,Option.getD_some] at h
      split at h
      · cases h
      rename_i hh
      rw [if_neg (by simp)] at h
      split at h
      · cases h
      rename_i hn
      cases h
      have hl : header.length = 19 := rfl
      have heq : (x :: t).take 19 = header := by
        rw [not_not.mp hh,List.take_of_length_le (by omega)]
      refine ⟨rfl,(x :: t).drop 19,?_⟩
      rw [← heq,List.take_append_drop]

lemma boundary_buffers {buffers : List Bytes} {b : Bytes} {p : ℕ} : Boundary ⟨[],buffers ++ [b]⟩ p ↔
      (∃ k,p = (buffers.take k).flatten.length) ∨ p = (buffers ++ [b]).flatten.length := by
  constructor
  · rintro ⟨k,rfl⟩
    rcases Nat.lt_or_ge buffers.length k with hk | hk
    · refine .inr ?_
      rw [List.take_of_length_le (by rw [List.length_append]; exact hk)]
      simp
    · exact .inl ⟨k,by rw [List.take_append_of_le_length hk]; simp⟩
  · rintro (⟨k,rfl⟩ | rfl)
    · refine ⟨min k buffers.length,?_⟩
      rw [List.take_append_of_le_length (Nat.min_le_right ..),List.take_eq_take_min]
      simp
    · exact ⟨buffers.length + 1,by rw [List.take_of_length_le (by simp)]; simp⟩

end bitTorrent

/-- How the bytes may arrive. For SSH the first look with eight bytes has all of the first line; for
BitTorrent no cached buffer ends inside the header behind its first byte. -/
def SafelyCut : Protocol → List Bytes → List Bytes → Prop
  | .ssh, buffers, reads => ∀ looked ∈ firstLook buffers.flatten reads,
      WholeLine looked (buffers.flatten ++ reads.flatten)
  | .bitTorrent, buffers, _ => ∀ k,
      (buffers.take k).flatten.length < 2 ∨ 20 ≤ (buffers.take k).flatten.length
  | .rdp, _, _ => True

/-- What is accepted in one read is accepted with the same result however it arrives, exactly if it
is cut safely for its protocol. -/
theorem accepted_however_cut_iff (protocol : Protocol) {buffers reads : List Bytes} {found : Found}
    (hr : reads ≠ [])
    (h : peekStream protocol.sniffer [] [buffers.flatten ++ reads.flatten] = .ok found) :
    peekStream protocol.sniffer buffers reads = .ok found ↔ SafelyCut protocol buffers reads := by
  have hone := peekStream_one h
  have hlook : ∀ front back : List Bytes, front ++ back = reads →
      (buffers ++ [[] ++ front.flatten]).flatten ++ back.flatten =
        buffers.flatten ++ reads.flatten := by
    rintro front back rfl
    simp
  cases protocol with
  | ssh =>
    obtain ⟨hp,rfl⟩ := ssh_one hone
    have hp' : sshPrefix <+: buffers.flatten ++ [] ++ reads.flatten := by rwa [List.append_nil]
    obtain ⟨looked,hlo,hpre,hl,hpeek⟩ := peekFrom_ssh (e := .readPayload) hr hp'
    rw [List.append_nil] at hlo hpre
    have hps : sshPrefix <+: looked := List.prefix_of_prefix_length_le hp hpre hl
    have hs : SafelyCut .ssh buffers reads ↔ WholeLine looked (buffers.flatten ++ reads.flatten) := by
      simp only [SafelyCut,hlo,Option.mem_some_iff,forall_eq']
    rw [hs,← client_eq_iff hps hpre,peekStream]
    dsimp only [Protocol.sniffer]
    rw [hpeek,Except.ok.injEq,Found.mk.injEq,Option.some.injEq,and_iff_right rfl]
  | bitTorrent =>
    obtain ⟨rfl,more,hm⟩ := bitTorrent_one hone
    have hp : ∀ front back : List Bytes, front ++ back = reads →
        (buffers ++ [[] ++ front.flatten]).flatten <+: 19 :: (header ++ more) :=
      fun front back hf => ⟨back.flatten,(hlook front back hf).trans hm⟩
    constructor
    · intro hok k
      by_contra hk
      refine peekFrom_ne_ok (fun front back hf => ?_) hok
      obtain ⟨d,hb,hd⟩ := bitTorrent_look (hp front back hf)
      have hlt : d < 19 := by
        obtain ⟨hlt,-⟩ | ⟨-,-,hd⟩ := hd
        · exact hlt
        · have hkd := hd _ (by omega) (boundary_buffers.mpr (.inl ⟨k,rfl⟩))
          omega
      rw [if_pos hlt] at hb
      exact fun hok => by cases hb.symm.trans hok
    · intro hs
      refine peekFrom_eq_ok hr fun front back _ hf => ?_
      obtain ⟨d,hb,hd⟩ := bitTorrent_look (hp front back hf)
      by_cases hlt : d < 19
      · rw [if_pos hlt] at hb
        refine .inr ⟨?_,hb⟩
        rintro rfl
        have hl := congrArg List.length ((hlook front [] hf).trans hm)
        rw [List.flatten_nil,List.append_nil,List.length_cons,List.length_append] at hl
        have hh : header.length = 19 := rfl
        obtain ⟨-,hle⟩ | ⟨h1,hbo,-⟩ := hd
        · omega
        · obtain ⟨k,hk⟩ | ht := boundary_buffers.mp hbo
          · have hks := hs k
            omega
          · omega
      · rw [if_neg hlt] at hb
        exact .inl hb
  | rdp =>
    refine iff_of_true (peekFrom_eq_ok hr fun front back _ hf => ?_) trivial
    have hl := hlook front back hf
    rw [← List.flatten_singleton (l := buffers.flatten ++ reads.flatten)] at hl
    obtain hok | ⟨hne,he⟩ := rdp_look hl.symm hone
    · exact .inl hok
    · exact .inr ⟨by rintro rfl; exact hne rfl,he⟩

/-- An SSH banner in three parts, the first one cached and the last one its line end. -/
theorem banner_in_parts_accepted :
    SafelyCut .ssh [[83,83]] [[72,45,50,46,48,45,97,98],[10]] ∧
    peekStream ssh [[83,83]] [[72,45,50,46,48,45,97,98],[10]] =
      .ok ⟨.ssh,some [97,98]⟩ := by
  have hs : SafelyCut .ssh [[83,83]] [[72,45,50,46,48,45,97,98],[10]] := by
    rintro looked ⟨⟩
    exact .beforeLF ⟨[],rfl⟩ (by decide)
  exact ⟨hs,(accepted_however_cut_iff .ssh (by simp) rfl).mpr hs⟩

/-- A banner whose name is cut, and a BitTorrent header of which two bytes are cached. -/
theorem cut_differently :
    peekStream ssh [] [sshPrefix ++ [97,98,13,10]] = .ok ⟨.ssh,some [97,98]⟩ ∧
    peekStream ssh [] [sshPrefix ++ [97],[98,13,10]] = .ok ⟨.ssh,some [97]⟩ ∧
    peekStream bitTorrent [] [19 :: header] = .ok ⟨.bitTorrent,none⟩ ∧
    peekStream bitTorrent [[19,66]] [header.drop 1] = .error (.sniff .needMoreData) :=
  ⟨rfl,rfl,rfl,rfl⟩

end SingBoxAuth.StreamSniffing
