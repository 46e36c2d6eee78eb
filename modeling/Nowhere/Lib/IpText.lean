import Nowhere.Lib.Bytes
import Nowhere.Lib.Text

/-!
# Texts of IP addresses

The printed forms of IPv4 and IPv6 addresses and the texts that are read as such. An IPv4 address is
four decimal octets without leading zeros. An IPv6 address is eight hexadecimal segments; two colons
stand for the longest run of zero segments, the first one of several, if it has at least two. An
address that stands for an IPv4 address ends in it. What was printed is read back.
-/

namespace IpText

open Bytes Text

def dot : UInt8 := 46
def colon : UInt8 := 58

/-! ## IPv4 -/

/-- A decimal number below 256 without leading zeros. -/
def readOctet (text : List UInt8) : Option UInt8 :=
  if text.head? = some 48 ∧ text.length ≠ 1 then none
  else ((readNumeral 10 text).filter (· < 256)).map UInt8.ofNat

def displayIpv4 (ip : BitVec 32) : List UInt8 :=
  [dot].intercalate ((toBe 4 ip.toNat).map fun octet => numeral 10 octet.toNat)

def readIpv4 (text : List UInt8) : Option (BitVec 32) := do
  let octets ← (text.splitOn dot).mapM readOctet
  if octets.length = 4 then some (BitVec.ofNat 32 (ofBe octets)) else none

theorem readOctet_numeral (octet : UInt8) : readOctet (numeral 10 octet.toNat) = some octet := by
  have hlt : octet.toNat < 256 := octet.toNat_lt
  have hzero : ¬ ((numeral 10 octet.toNat).head? = some 48 ∧
      (numeral 10 octet.toNat).length ≠ 1) := by
    rintro ⟨hhead, hlength⟩
    rw [head_numeral (by decide) (by decide) hhead, numeral_of_lt (by decide)] at hlength
    exact hlength rfl
  rw [readOctet, if_neg hzero, readNumeral_numeral (by decide) (by decide), Option.filter_some,
    if_pos (decide_eq_true hlt), Option.map_some, UInt8.ofNat_toNat]

/-- Parts without the separator are read back one by one. -/
theorem mapM_splitOn_intercalate {α β : Type} {sep : UInt8} {print : α → List UInt8}
    {read : List UInt8 → Option β} {f : α → β} {xs : List α} (hxs : xs ≠ [])
    (hsep : ∀ x ∈ xs, sep ∉ print x) (hread : ∀ x ∈ xs, read (print x) = some (f x)) :
    (([sep].intercalate (xs.map print)).splitOn sep).mapM read = some (xs.map f) := by
  rw [List.splitOn_intercalate _ (by simpa using hsep) (by simpa using hxs)]
  clear hxs hsep
  induction xs with
  | nil => rfl
  | cons x xs ih =>
    rw [List.map_cons, List.mapM_cons, hread x List.mem_cons_self,
      ih fun y hy => hread y (List.mem_cons_of_mem _ hy)]
    rfl

variable {byte : UInt8} {high low : UInt16} {text : List UInt8}

/-- A printed IPv4 address consists of digits and dots. -/
theorem not_mem_displayIpv4 (hdot : byte ≠ dot) (hhex : isHexDigit byte = false) (ip : BitVec 32) :
    byte ∉ displayIpv4 ip := by
  have hnumeral (n : Nat) : byte ∉ numeral 10 n := not_mem_numeral (by decide) (by decide) hhex n
  simp only [displayIpv4, toBe, List.map_cons, List.map_nil, List.intercalate, List.intersperse,
    List.flatten_cons, List.flatten_nil, List.mem_append, List.mem_singleton, not_or]
  exact ⟨hnumeral _, hdot, hnumeral _, hdot, hnumeral _, hdot, hnumeral _, List.not_mem_nil⟩

theorem colon_not_mem_displayIpv4 (ip : BitVec 32) : colon ∉ displayIpv4 ip :=
  not_mem_displayIpv4 (by decide) (by decide) ip

theorem readIpv4_display (ip : BitVec 32) : readIpv4 (displayIpv4 ip) = some ip := by
  have hne : toBe 4 ip.toNat ≠ [] := by simp [toBe]
  rw [readIpv4, displayIpv4, mapM_splitOn_intercalate hne
    (fun octet _ => not_mem_numeral (by decide) (by decide) (by decide) _)
    (fun octet _ => readOctet_numeral octet)]
  simp only [List.map_id', Option.bind_eq_bind, Option.bind_some, length_toBe, if_true]
  rw [@bitVec_toBe 4 ip]

/-! ## Segments of IPv6 addresses -/

/-- Two bytes make a segment. -/
def pairs : List UInt8 → List UInt16
  | high :: low :: rest => UInt16.ofNat (ofBe [high, low]) :: pairs rest
  | _ => []

def halves (segments : List UInt16) : List UInt8 := segments.flatMap fun segment =>
  toBe 2 segment.toNat

def segments (ip : BitVec 128) : List UInt16 := pairs (toBe 16 ip.toNat)

def ofSegments (segments : List UInt16) : BitVec 128 := BitVec.ofNat 128 (ofBe (halves segments))

def ipv4Segments (ip : BitVec 32) : List UInt16 := pairs (toBe 4 ip.toNat)

theorem halves_pairs {bytes : List UInt8} {n : Nat} (h : bytes.length = 2 * n) :
    halves (pairs bytes) = bytes := by
  induction n generalizing bytes with
  | zero =>
    rw [List.eq_nil_of_length_eq_zero h]
    rfl
  | succ n ih =>
    match bytes with
    | high :: low :: rest =>
      simp only [List.length_cons] at h
      have hrest : halves (pairs rest) = rest := ih (by omega)
      have hpair : toBe 2 (UInt16.ofNat (ofBe [high, low])).toNat = [high, low] := toBe_uint16 rfl
      rw [halves] at hrest
      rw [pairs, halves, List.flatMap_cons, hpair, hrest]
      rfl

theorem pairs_halves (segments : List UInt16) : pairs (halves segments) = segments := by
  induction segments with
  | nil => rfl
  | cons segment rest ih =>
    have hsegment := uint16_toBe segment
    rw [halves, List.flatMap_cons]
    change pairs (UInt8.ofNat _ :: UInt8.ofNat _ :: halves rest) = _
    rw [pairs, ih]
    exact congrArg (· :: rest) hsegment

theorem length_segments (ip : BitVec 128) : (segments ip).length = 8 := rfl

theorem ofSegments_segments (ip : BitVec 128) : ofSegments (segments ip) = ip := by
  rw [ofSegments, segments, halves_pairs (n := 8) (length_toBe 16 _)]
  exact @bitVec_toBe 16 ip

theorem ipv4Segments_halves :
    ipv4Segments (BitVec.ofNat 32 (ofBe (halves [high, low]))) = [high, low] := by
  have hbytes : toBe 4 (BitVec.ofNat 32 (ofBe (halves [high, low]))).toNat =
      halves [high, low] := @toBe_bitVec 4 (halves [high, low]) rfl
  rw [ipv4Segments, hbytes, pairs_halves]

/-! ## The longest run of zeros -/

/-- Start and length of the longest run of zero segments, the first one of several. The loop keeps
the longest run so far and the one it is in. -/
def zeroRun : Nat → List UInt16 → Nat × Nat → Nat × Nat → Nat × Nat
  | _, [], longest, _ => longest
  | i, segment :: rest, longest, current =>
    if segment = 0 then
      let current := if current.2 = 0 then (i, 1) else (current.1, current.2 + 1)
      zeroRun (i + 1) rest (if longest.2 < current.2 then current else longest) current
    else zeroRun (i + 1) rest longest (0, 0)

/-- The segments of a run are zero. -/
def Zeros (segments : List UInt16) (run : Nat × Nat) : Prop :=
  ∀ j, run.1 ≤ j → j < run.1 + run.2 → segments[j]? = some 0

theorem Zeros.none (segments : List UInt16) : Zeros segments (0, 0) := by
  intro j _ hj
  omega

theorem zeros_zeroRun {segments rest : List UInt16} {i : Nat} {longest current : Nat × Nat}
    (hrest : segments.drop i = rest) (hlongest : Zeros segments longest)
    (hcurrent : Zeros segments current) (hgoing : current.2 = 0 ∨ current.1 + current.2 = i) :
    Zeros segments (zeroRun i rest longest current) := by
  induction rest generalizing i longest current with
  | nil => exact hlongest
  | cons segment rest ih =>
    have hhead : segments[i]? = some segment := by
      rw [← List.head?_drop, hrest, List.head?_cons]
    have htail : segments.drop (i + 1) = rest := by
      rw [← List.drop_drop, hrest, List.drop_one, List.tail_cons]
    rw [zeroRun]
    split
    · rename_i hzero
      dsimp only
      generalize hnext : (if current.2 = 0 then (i, 1) else (current.1, current.2 + 1)) = next
      -- the current run goes on with this segment, or starts here
      have hend : next.1 + next.2 = i + 1 ∧ (next.1 = i ∨ next.1 = current.1 ∧
          current.1 + current.2 = i) := by
        rw [← hnext]
        split
        · exact ⟨rfl, .inl rfl⟩
        · dsimp only
          omega
      have hzeros : Zeros segments next := by
        intro j hj hj'
        by_cases hji : j = i
        · rw [hji, hhead, hzero]
        · exact hcurrent j (by omega) (by omega)
      refine ih htail ?_ hzeros (.inr hend.1)
      split
      · exact hzeros
      · exact hlongest
    · exact ih htail hlongest (.none _) (.inl rfl)

theorem Zeros.drop_eq {segments : List UInt16} {start length : Nat}
    (h : Zeros segments (start, length)) :
    segments.drop start = List.replicate length 0 ++ segments.drop (start + length) := by
  induction length generalizing start with
  | zero => rfl
  | succ length ih =>
    obtain ⟨hlt, hzero⟩ := List.getElem?_eq_some_iff.mp (h start (Nat.le_refl _) (by simp))
    have hrest : Zeros segments (start + 1, length) := by
      intro j hj hj'
      exact h j (by omega) (by omega)
    rw [List.drop_eq_getElem_cons hlt, hzero, ih hrest, List.replicate_succ, List.cons_append,
      Nat.add_right_comm, Nat.add_assoc]

/-- What stands before and after a run of zeros. -/
theorem Zeros.split {segments : List UInt16} {run : Nat × Nat} (h : Zeros segments run) :
    segments = segments.take run.1 ++ List.replicate run.2 0 ++ segments.drop (run.1 + run.2) := by
  rw [List.append_assoc, ← h.drop_eq, List.take_append_drop]

/-! ## IPv6 -/

def displaySegments (segments : List UInt16) : List UInt8 :=
  [colon].intercalate (segments.map fun segment => numeral 16 segment.toNat)

/-- The first six segments of an address that stands for an IPv4 address. -/
def mapped : List UInt16 := [0, 0, 0, 0, 0, 0xffff]

/-- The last of them in print. -/
def mappedMark : List UInt8 := [102, 102, 102, 102]

def displayIpv6 (ip : BitVec 128) : List UInt8 :=
  if (segments ip).take 6 = mapped then
    colon :: colon :: mappedMark ++
      colon :: displayIpv4 (BitVec.ofNat 32 (ofBe (halves ((segments ip).drop 6))))
  else
    let run := zeroRun 0 (segments ip) (0, 0) (0, 0)
    if 1 < run.2 then
      displaySegments ((segments ip).take run.1) ++
        colon :: colon :: displaySegments ((segments ip).drop (run.1 + run.2))
    else displaySegments (segments ip)

/-- What stands before and after the first two colons in a row. -/
def splitDouble : List UInt8 → Option (List UInt8 × List UInt8)
  | [] => none
  | [_] => none
  | byte :: next :: rest =>
    if byte = colon ∧ next = colon then some ([], rest)
    else (splitDouble (next :: rest)).map fun p => (byte :: p.1, p.2)

/-- Up to four hexadecimal digits. -/
def readSegment (text : List UInt8) : Option UInt16 :=
  if 4 < text.length then none else (readNumeral 16 text).map UInt16.ofNat

def readSegments (text : List UInt8) : Option (List UInt16) :=
  if text = [] then some [] else (text.splitOn colon).mapM readSegment

/-- Segments of which the last two may be an IPv4 address. -/
def readTail (text : List UInt8) : Option (List UInt16) :=
  match rsplitOnce colon text with
  | none =>
    match readIpv4 text with
    | some ip => some (ipv4Segments ip)
    | none => readSegments text
  | some (front, last) =>
    match readIpv4 last with
    | some ip => ((front.splitOn colon).mapM readSegment).map (· ++ ipv4Segments ip)
    | none => readSegments text

def readIpv6 (text : List UInt8) : Option (BitVec 128) :=
  match splitDouble text with
  | none => ((readTail text).filter (·.length = 8)).map ofSegments
  | some (front, back) => do
    let head ← readSegments front
    let tail ← readTail back
    if head.length + tail.length < 8 then
      some (ofSegments (head ++ List.replicate (8 - head.length - tail.length) 0 ++ tail))
    else none

theorem readSegment_numeral (segment : UInt16) :
    readSegment (numeral 16 segment.toNat) = some segment := by
  have hlength : ¬ 4 < (numeral 16 segment.toNat).length :=
    Nat.not_lt_of_le (length_numeral_le (by decide) segment.toNat_lt)
  rw [readSegment, if_neg hlength, readNumeral_numeral (by decide) (by decide), Option.map_some,
    UInt16.ofNat_toNat]

theorem colon_not_mem_numeral (n : Nat) : colon ∉ numeral 16 n :=
  not_mem_numeral (by decide) (by decide) (by decide) n

theorem displaySegments_cons (segment next : UInt16) (rest : List UInt16) :
    displaySegments (segment :: next :: rest) =
      numeral 16 segment.toNat ++ colon :: displaySegments (next :: rest) := by
  simp [displaySegments, List.intercalate]

theorem displaySegments_singleton (segment : UInt16) :
    displaySegments [segment] = numeral 16 segment.toNat := by
  simp [displaySegments, List.intercalate]

/-- Printed segments start with a digit. -/
theorem displaySegments_head (segment : UInt16) (rest : List UInt16) :
    ∃ byte more, displaySegments (segment :: rest) = byte :: more ∧ byte ≠ colon := by
  obtain ⟨byte, more, hcons⟩ := List.exists_cons_of_ne_nil (@numeral_ne_nil 16 segment.toNat)
  have hbyte : byte ≠ colon := by
    rintro rfl
    refine colon_not_mem_numeral segment.toNat ?_
    rw [hcons]
    exact List.mem_cons_self
  cases rest with
  | nil => exact ⟨byte, more, by rw [displaySegments_singleton, hcons], hbyte⟩
  | cons next rest =>
    exact ⟨byte, _, by rw [displaySegments_cons, hcons, List.cons_append], hbyte⟩

/-- Printed segments consist of digits and colons. -/
theorem not_mem_displaySegments (hcolon : byte ≠ colon) (hhex : isHexDigit byte = false)
    (segments : List UInt16) :
    byte ∉ displaySegments segments := by
  have hnumeral (n : Nat) : byte ∉ numeral 16 n := not_mem_numeral (by decide) (by decide) hhex n
  induction segments with
  | nil => exact List.not_mem_nil
  | cons segment rest ih =>
    cases rest with
    | nil =>
      rw [displaySegments_singleton]
      exact hnumeral _
    | cons next rest =>
      rw [displaySegments_cons, List.mem_append, List.mem_cons]
      rintro (h | h | h)
      · exact hnumeral _ h
      · exact hcolon h
      · exact ih h

theorem dot_not_mem_displaySegments (segments : List UInt16) : dot ∉ displaySegments segments :=
  not_mem_displaySegments (by decide) (by decide) segments

theorem readSegments_display (segments : List UInt16) :
    readSegments (displaySegments segments) = some segments := by
  match segments with
  | [] => rfl
  | segment :: rest =>
    have hne : displaySegments (segment :: rest) ≠ [] := by
      obtain ⟨byte, more, hcons, -⟩ := displaySegments_head segment rest
      rw [hcons]
      exact List.cons_ne_nil _ _
    rw [readSegments, if_neg hne, displaySegments, mapM_splitOn_intercalate (List.cons_ne_nil _ _)
      (fun segment _ => colon_not_mem_numeral _) (fun segment _ => readSegment_numeral segment),
      List.map_id']

theorem not_mem_displayIpv6 (hcolon : byte ≠ colon) (hdot : byte ≠ dot)
    (hhex : isHexDigit byte = false) (ip : BitVec 128) : byte ∉ displayIpv6 ip := by
  have hmark : byte ∉ mappedMark := by
    intro hmem
    have hdigits : mappedMark.all isHexDigit = true := by decide
    rw [List.all_eq_true.mp hdigits byte hmem] at hhex
    cases hhex
  unfold displayIpv6
  split
  · simp only [List.mem_append, List.mem_cons, not_or]
    exact ⟨⟨hcolon, hcolon, hmark⟩, hcolon, not_mem_displayIpv4 hdot hhex _⟩
  · dsimp only
    split
    · simp only [List.mem_append, List.mem_cons, not_or]
      exact ⟨not_mem_displaySegments hcolon hhex _, hcolon, hcolon,
        not_mem_displaySegments hcolon hhex _⟩
    · exact not_mem_displaySegments hcolon hhex _

/-- A text that starts with something else than a digit is no IPv4 address. -/
theorem readIpv4_of_head (hdot : byte ≠ dot) (hhex : isHexDigit byte = false) (text : List UInt8) :
    readIpv4 (byte :: text) = none := by
  have hoctet (more : List UInt8) : readOctet (byte :: more) = none := by
    have hvalue : hexValue byte = none := by simpa [isHexDigit] using hhex
    have hnumeral : readNumeral 10 (byte :: more) = none := by
      rw [readNumeral, if_neg (List.cons_ne_nil _ _), List.foldlM_cons, hvalue]
      rfl
    rw [readOctet, hnumeral]
    split <;> rfl
  rw [readIpv4, List.splitOn_cons_eq_if_modifyHead, if_neg (by simpa using hdot)]
  obtain ⟨first, parts, hparts⟩ := List.exists_cons_of_ne_nil (List.splitOn_ne_nil dot text)
  rw [hparts, List.modifyHead_cons, List.mapM_cons, hoctet]
  rfl

/-- A text without a dot is no IPv4 address. -/
theorem readIpv4_of_no_dot (h : dot ∉ text) : readIpv4 text = none := by
  rw [readIpv4, List.splitOn_eq_singleton h, List.mapM_cons, List.mapM_nil]
  cases readOctet text with
  | none => rfl
  | some octet => rfl

theorem readTail_of_no_dot (h : dot ∉ text) :
    readTail text = readSegments text := by
  unfold readTail
  split
  · rw [readIpv4_of_no_dot h]
  · rename_i front last hsplit
    have hlast : dot ∉ last := by
      intro hmem
      rw [eq_of_rsplitOnce hsplit] at h
      exact h (List.mem_append_right _ (List.mem_cons_of_mem _ hmem))
    rw [readIpv4_of_no_dot hlast]

/-! ## Two colons in a row -/

theorem splitDouble_append_of_free (h : colon ∉ text) (rest : List UInt8) :
    splitDouble (text ++ rest) = (splitDouble rest).map fun p => (text ++ p.1, p.2) := by
  induction text with
  | nil => simp
  | cons byte text ih =>
    rw [List.mem_cons, not_or] at h
    have htail := ih h.2
    rw [List.cons_append]
    cases hmore : text ++ rest with
    | nil =>
      rw [List.append_eq_nil_iff] at hmore
      rw [hmore.2]
      rfl
    | cons next more =>
      rw [hmore] at htail
      rw [splitDouble, if_neg (fun heq => h.1 heq.1.symm), htail, Option.map_map]
      rfl

theorem splitDouble_display (segments : List UInt16) (rest : List UInt8) :
    splitDouble (displaySegments segments ++ rest) =
      (splitDouble rest).map fun p => (displaySegments segments ++ p.1, p.2) := by
  induction segments with
  | nil => simp [displaySegments, List.intercalate]
  | cons segment more ih =>
    cases more with
    | nil =>
      rw [displaySegments_singleton]
      exact splitDouble_append_of_free (colon_not_mem_numeral _) rest
    | cons next more =>
      obtain ⟨byte, bytes, hcons, hbyte⟩ := displaySegments_head next more
      rw [displaySegments_cons, List.append_assoc,
        splitDouble_append_of_free (colon_not_mem_numeral _), List.cons_append, hcons,
        List.cons_append, splitDouble, if_neg (fun heq => hbyte heq.2), ← List.cons_append, ← hcons,
        ih, Option.map_map, Option.map_map]
      congr 1
      funext p
      simp

theorem readTail_mapped (ip : BitVec 32) :
    readTail (mappedMark ++ colon :: displayIpv4 ip) = some (0xffff :: ipv4Segments ip) := by
  have hfront : (mappedMark.splitOn colon).mapM readSegment = some [0xffff] := by decide
  rw [readTail, rsplitOnce_append _ (colon_not_mem_displayIpv4 _)]
  dsimp only
  rw [readIpv4_display]
  dsimp only
  rw [hfront, Option.map_some, List.singleton_append]

/-- The printed form of an address that stands for an IPv4 address. -/
theorem readIpv6_mapped (h : readTail text = some [0xffff, high, low]) :
    readIpv6 (colon :: colon :: text) = some (ofSegments (mapped ++ [high, low])) := by
  rw [readIpv6, splitDouble, if_pos ⟨rfl, rfl⟩]
  dsimp only
  rw [h]
  rfl

theorem readIpv6_display (ip : BitVec 128) : readIpv6 (displayIpv6 ip) = some ip := by
  unfold displayIpv6
  split
  · rename_i hmapped
    have hlast : ((segments ip).drop 6).length = 2 := by
      rw [List.length_drop, length_segments]
    obtain ⟨high, low, hdrop⟩ := List.length_eq_two.mp hlast
    have htail := readTail_mapped (BitVec.ofNat 32 (ofBe (halves [high, low])))
    rw [ipv4Segments_halves] at htail
    rw [hdrop, List.cons_append, List.cons_append, readIpv6_mapped htail, ← hmapped, ← hdrop,
      List.take_append_drop, ofSegments_segments]
  · have hzeros : Zeros (segments ip) (zeroRun 0 (segments ip) (0, 0) (0, 0)) :=
      zeros_zeroRun rfl (.none _) (.none _) (.inl rfl)
    dsimp only
    generalize zeroRun 0 (segments ip) (0, 0) (0, 0) = run at hzeros
    split
    · rename_i hrun
      have hsplit := hzeros.split
      have hlength := congrArg List.length hsplit
      simp only [List.length_append, List.length_replicate, length_segments] at hlength
      rw [readIpv6, splitDouble_display, splitDouble, if_pos ⟨rfl, rfl⟩]
      simp only [Option.map_some, List.append_nil, readSegments_display, Option.bind_eq_bind,
        Option.bind_some, readTail_of_no_dot (dot_not_mem_displaySegments _)]
      rw [if_pos (by omega)]
      have hgap : 8 - ((segments ip).take run.1).length -
          ((segments ip).drop (run.1 + run.2)).length = run.2 := by omega
      rw [hgap, ← hsplit, ofSegments_segments]
    · have hnone : splitDouble (displaySegments (segments ip)) = none := by
        have := splitDouble_display (segments ip) []
        simpa [splitDouble] using this
      rw [readIpv6, hnone]
      dsimp only
      rw [readTail_of_no_dot (dot_not_mem_displaySegments _), readSegments_display,
        Option.filter_some, if_pos (by rw [length_segments]; rfl), Option.map_some,
        ofSegments_segments]

end IpText
