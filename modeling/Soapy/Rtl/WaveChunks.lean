import Soapy.Rtl.WaveFile

/-! # The chunks of a WAV file

The reader goes from chunk to chunk by the sizes that stand there, up to the data. It knows nothing
of the pad byte behind an odd chunk, and takes the end of an empty chunk for the end of the file.
-/

namespace Soapy.Rtl.Wave

open Lib

/-- A header and as many bytes behind it as it says, at least one, at most as many as the buffer
holds, and the whole of an `auxi` chunk. -/
structure Stride (hdr body : Bytes) : Prop where
  header : hdr.length = 8
  other : hdr.take 4 ≠ ascii "data"
  size : body.length = (u32At hdr 4).toNat
  some_bytes : 0 < body.length
  small : body.length ≤ bufSize
  auxi : hdr.take 4 = ascii "auxi" → auxiSize ≤ body.length

inductive Jumps : Bytes → Bytes → Prop where
  | here (f : Bytes) : Jumps f f
  | past {hdr body f g : Bytes} : Stride hdr body → Jumps f g → Jumps (hdr ++ body ++ f) g

def IsDataHeader (hdr : Bytes) (size : UInt32) : Prop :=
  hdr.length = 8 ∧ hdr.take 4 = ascii "data" ∧ size = u32At hdr 4

theorem fread_eq_some {size : Nat} {f item rest : Bytes} (read : fread size f = some (item, rest)) :
    f = item ++ rest ∧ item.length = size ∧ 0 < size := by
  rw [fread] at read
  split at read
  · rename_i here
    cases read
    exact ⟨(List.take_append_drop _ _).symm, List.length_take_of_le here.2, here.1⟩
  · cases read

theorem fread_append {size : Nat} {item : Bytes} (whole : item.length = size) (positive : 0 < size)
    (rest : Bytes) : fread size (item ++ rest) = some (item, rest) := by
  subst whole
  rw [fread, if_pos ⟨positive, by rw [List.length_append]; omega⟩, List.take_left, List.drop_left]

theorem Jumps.suffix {f g : Bytes} (jumps : Jumps f g) : g <:+ f := by
  induction jumps with
  | here f => exact List.suffix_refl f
  | past stride rest ih => exact ih.trans (List.suffix_append _ _)

theorem Jumps.first {hdr f g : Bytes} (jumps : Jumps (hdr ++ f) g) (header : hdr.length = 8)
    (later : g.length < (hdr ++ f).length) :
    ∃ body rest, f = body ++ rest ∧ Stride hdr body ∧ Jumps rest g := by
  generalize whole : hdr ++ f = h at jumps
  cases jumps with
  | here => exact absurd (whole ▸ later) (Nat.lt_irrefl _)
  | @past hdr' body rest _ stride jumps =>
    rw [List.append_assoc] at whole
    obtain ⟨same, behind⟩ := List.append_inj whole (header.trans stride.header.symm)
    subst same
    exact ⟨body, rest, behind, stride, jumps⟩

theorem readChunks_over {hdr body : Bytes} (stride : Stride hdr body) (auxi : Option Bytes)
    (f : Bytes) :
    readChunks auxi (hdr ++ body ++ f) =
      readChunks (if hdr.take 4 = ascii "auxi" then some (body.take auxiSize) else auxi) f := by
  have small := stride.small
  have first := fread_append stride.header (by decide) (body ++ f)
  have second := fread_append stride.size (stride.size ▸ stride.some_bytes) f
  rw [stride.size] at small
  rw [readChunks, List.append_assoc]
  split
  · rename_i none
    cases none.symm.trans first
  · rename_i hdr' rest read
    cases read.symm.trans first
    by_cases auxiliary : hdr.take 4 = ascii "auxi"
    · have long := stride.auxi auxiliary
      rw [stride.size] at long
      rw [if_pos auxiliary, if_pos auxiliary, if_neg (Nat.not_lt.mpr small),
        if_neg (Nat.not_lt.mpr long)]
      split
      · rename_i none
        cases none.symm.trans second
      · rename_i buf rest' read
        cases read.symm.trans second
        rfl
    · rw [if_neg auxiliary, if_neg auxiliary, if_neg stride.other, if_neg (Nat.not_lt.mpr small)]
      split
      · rename_i none
        cases none.symm.trans second
      · rename_i buf rest' read
        cases read.symm.trans second
        rfl

theorem readChunks_data {hdr : Bytes} {size : UInt32} (data : IsDataHeader hdr size)
    (auxi : Option Bytes) (f : Bytes) : readChunks auxi (hdr ++ f) = .ok (auxi, size, f) := by
  obtain ⟨length, ID, same⟩ := data
  have first := fread_append length (by decide) f
  have other : hdr.take 4 ≠ ascii "auxi" := by
    rw [ID]
    decide
  rw [readChunks]
  split
  · rename_i none
    cases none.symm.trans first
  · rename_i hdr' rest read
    cases read.symm.trans first
    rw [if_neg other, if_pos ID, same]

theorem Jumps.reads {f g hdr : Bytes} {size : UInt32} (jumps : Jumps f (hdr ++ g))
    (data : IsDataHeader hdr size) (auxi : Option Bytes) :
    ∃ auxi', readChunks auxi f = .ok (auxi', size, g) := by
  generalize whole : hdr ++ g = h at jumps
  induction jumps generalizing auxi with
  | here f =>
    subst whole
    exact ⟨auxi, readChunks_data data auxi g⟩
  | past stride rest ih =>
    rw [readChunks_over stride auxi]
    exact ih _ whole

theorem IsDataHeader.length {hdr : Bytes} {size : UInt32} (data : IsDataHeader hdr size) :
    hdr.length = 8 := data.1

theorem jumps_of_reads {auxi auxi' : Option Bytes} {f g : Bytes} {size : UInt32}
    (reads : readChunks auxi f = .ok (auxi', size, g)) :
    ∃ hdr, IsDataHeader hdr size ∧ Jumps f (hdr ++ g) := by
  induction f using (measure List.length).wf.induction generalizing auxi with
  | h f ih =>
    rw [readChunks] at reads
    split at reads
    · cases reads
    · rename_i hdr rest read
      obtain ⟨rfl, length, -⟩ := fread_eq_some read
      have less := fread_shorter read
      simp only at reads
      by_cases data : hdr.take 4 = ascii "data"
      · have other : hdr.take 4 ≠ ascii "auxi" := by
          rw [data]
          decide
        rw [if_neg other, if_pos data] at reads
        cases reads
        exact ⟨hdr, ⟨length, data, rfl⟩, .here _⟩
      · by_cases large : bufSize < (u32At hdr 4).toNat
        · rw [if_pos large, if_neg data, if_pos large] at reads
          split at reads <;> cases reads
        · rw [if_neg large, if_neg data, if_neg large] at reads
          by_cases short : hdr.take 4 = ascii "auxi" ∧ (u32At hdr 4).toNat < auxiSize
          · rw [if_pos short.1, if_pos short.2] at reads
            cases reads
          · have past : ∃ body rest' auxi'', fread (u32At hdr 4).toNat rest = some (body, rest') ∧
                readChunks auxi'' rest' = .ok (auxi', size, g) := by
              split at reads
              · rename_i auxiliary
                rw [if_neg fun short' => short ⟨auxiliary, short'⟩] at reads
                split at reads
                · cases reads
                · rename_i body rest' read
                  exact ⟨body, rest', _, read, reads⟩
              · split at reads
                · cases reads
                · rename_i body rest' read
                  exact ⟨body, rest', _, read, reads⟩
            obtain ⟨body, rest', auxi'', read, later⟩ := past
            obtain ⟨rfl, size', positive⟩ := fread_eq_some read
            have stride : Stride hdr body := {
              header := length
              other := data
              size := size'
              some_bytes := size'.symm ▸ positive
              small := size'.symm ▸ Nat.not_lt.mp large
              auxi := fun auxiliary => size'.symm ▸ Nat.not_lt.mp fun short' =>
                short ⟨auxiliary, short'⟩ }
            obtain ⟨hdr', data', jumps⟩ := ih rest'
              (Nat.lt_trans (fread_shorter read) less) later
            refine ⟨hdr', data', ?_⟩
            rw [← List.append_assoc]
            exact .past stride jumps

theorem le16_length (v : UInt16) : (le16 v).length = 2 := toLE_length 2 _

theorem le32_length (v : UInt32) : (le32 v).length = 4 := toLE_length 4 _

theorem u16At_le16 {before : Bytes} {i : Nat} (here : before.length = i) (v : UInt16)
    (after : Bytes) : u16At (before ++ (le16 v ++ after)) i = v := by
  rw [u16At, ← here, List.drop_left, ← le16_length v, List.take_left, le16,
    ofLE_toLE 2 _ v.toNat_lt, UInt16.ofNat_toNat]

theorem u32At_le32 {before : Bytes} {i : Nat} (here : before.length = i) (v : UInt32)
    (after : Bytes) : u32At (before ++ (le32 v ++ after)) i = v := by
  rw [u32At, ← here, List.drop_left, ← le32_length v, List.take_left, le32,
    ofLE_toLE 4 _ v.toNat_lt, UInt32.ofNat_toNat]

/-- The two chunks at the beginning of a file. -/
structure Opening (riff fmt : Bytes) : Prop where
  riff_length : riff.length = 12
  riff_ID : riff.take 4 = ascii "RIFF"
  waveID : (riff.drop 8).take 4 = ascii "WAVE"
  fmt_length : fmt.length = 24
  fmt_ID : fmt.take 4 = ascii "fmt "
  fmt_size : u32At fmt 4 = 16

theorem Opening.reads {riff fmt : Bytes} (opening : Opening riff fmt) (rest : Bytes) :
    waveReadHeader (riff ++ fmt ++ rest) = (readChunks none rest).bind (readData fmt) := by
  have first := fread_append opening.riff_length (by decide) (fmt ++ rest)
  have second := fread_append opening.fmt_length (by decide) rest
  rw [waveReadHeader, List.append_assoc, first]
  simp [opening.riff_ID, opening.waveID, second, opening.fmt_ID, opening.fmt_size]

theorem opening_of_reads {file : Bytes} (far : ∀ rv, waveReadHeader file ≠ .error (.code rv)) :
    ∃ riff fmt rest, file = riff ++ fmt ++ rest ∧ Opening riff fmt := by
  unfold waveReadHeader at far
  split at far
  · exact absurd rfl (far 10)
  · rename_i riff rest read
    obtain ⟨rfl, riff_length, -⟩ := fread_eq_some read
    split at far
    · exact absurd rfl (far 11)
    · rename_i riff_ID
      split at far
      · exact absurd rfl (far 12)
      · rename_i waveID
        split at far
        · exact absurd rfl (far 20)
        · rename_i fmt rest read
          obtain ⟨rfl, fmt_length, -⟩ := fread_eq_some read
          split at far
          · exact absurd rfl (far 21)
          · rename_i fmt_ID
            split at far
            · exact absurd rfl (far 22)
            · rename_i fmt_size
              refine ⟨riff, fmt, rest, (List.append_assoc _ _ _).symm, riff_length,
                not_ne_iff.mp riff_ID, not_ne_iff.mp waveID, fmt_length, not_ne_iff.mp fmt_ID,
                not_ne_iff.mp fmt_size⟩

theorem toNat_ofInt_mod (v : Int) : (UInt64.ofInt v).toNat = (v % 2 ^ 64).toNat := by
  rw [UInt64.ofInt, UInt64.toNat_ofNat']
  omega

theorem toNat_ofInt {v : Int} (natural : 0 ≤ v) (high : v < 2 ^ 63) :
    (UInt64.ofInt v).toNat = v.toNat := by
  rw [toNat_ofInt_mod, Int.emod_eq_of_lt natural (by omega)]

theorem ofInt_eq_zero_iff {v : Int} (low : -2 ^ 63 ≤ v) (high : v < 2 ^ 63) :
    UInt64.ofInt v = 0 ↔ v = 0 := by
  rw [← UInt64.toNat_inj, toNat_ofInt_mod, UInt64.toNat_zero]
  omega

theorem natAbs_product {a b : Int} (first : a.natAbs ≤ 2 ^ 15) (second : b.natAbs ≤ 2 ^ 15) :
    (a * b).natAbs ≤ 2 ^ 30 := by
  rw [Int.natAbs_mul]
  exact (Nat.mul_le_mul first second).trans (by decide)

theorem tdiv_eight (v : Int) : v.tdiv 8 = if 0 ≤ v then v / 8 else -(-v / 8) := by
  split
  · exact Int.tdiv_eq_ediv_of_nonneg ‹_›
  · rw [← Int.tdiv_eq_ediv_of_nonneg (by omega), Int.neg_tdiv, neg_neg]

theorem frameSize_eq_zero_iff {bits channels : Int} (bits_low : -2 ^ 15 ≤ bits)
    (bits_high : bits < 2 ^ 15) (channels_low : -2 ^ 15 ≤ channels)
    (channels_high : channels < 2 ^ 15) :
    frameSize bits channels = 0 ↔ channels = 0 ∨ -15 < bits ∧ bits ≤ 0 := by
  have bytes := tdiv_eight (bits + 7)
  have small := natAbs_product (a := (bits + 7).tdiv 8) (b := channels) (by omega) (by omega)
  have none : (bits + 7).tdiv 8 = 0 ↔ -15 < bits ∧ bits ≤ 0 := by omega
  rw [frameSize, ← UInt64.ofInt_mul, ofInt_eq_zero_iff (by omega) (by omega), mul_eq_zero, none,
    or_comm]

/-- The number of frames that the reader comes to. A negative frame is a huge one of type `size_t`,
longer than every file. -/
theorem nFrames_toNat (size : UInt32) (bits channels : Int) (bits_low : -2 ^ 15 ≤ bits)
    (bits_high : bits < 2 ^ 15) (channels_low : -2 ^ 15 ≤ channels)
    (channels_high : channels < 2 ^ 15) :
    (size.toUInt64 / frameSize bits channels).toUInt32.toNat =
      size.toNat / ((bits + 7).tdiv 8 * channels).toNat := by
  have small := natAbs_product (a := (bits + 7).tdiv 8) (b := channels)
    (by rw [tdiv_eight]; omega) (by omega)
  rw [frameSize, ← UInt64.ofInt_mul]
  generalize (bits + 7).tdiv 8 * channels = product at small ⊢
  have size_small := size.toNat_lt
  have divided : (size.toUInt64 / UInt64.ofInt product).toNat = size.toNat / (product % 2 ^ 64).toNat := by
    rw [UInt64.toNat_div, toNat_ofInt_mod, UInt32.toNat_toUInt64]
  have whole : size.toNat / (product % 2 ^ 64).toNat ≤ size.toNat := Nat.div_le_self _ _
  rw [UInt64.toNat_toUInt32, divided, Nat.mod_eq_of_lt (by omega)]
  rcases lt_or_ge product 0 with negative | natural
  · have huge : (product % 2 ^ 64).toNat = (product + 2 ^ 64).toNat := by omega
    rw [huge, Nat.div_eq_of_lt (by omega), Int.toNat_of_nonpos (le_of_lt negative), Nat.div_zero]
  · rw [Int.emod_eq_of_lt natural (by omega)]

theorem signed (v : UInt16) :
    v.toInt16.toInt = if v.toNat < 32768 then (v.toNat : Int) else v.toNat - 65536 := by
  have bits : v.toInt16.toInt = v.toBitVec.toInt := rfl
  rw [bits, BitVec.toInt_eq_toNat_cond, UInt16.toNat_toBitVec]
  split <;> split <;> omega

theorem readData_divides_iff (fmt : Bytes) (found : Option Bytes × UInt32 × Bytes) :
    readData fmt found = .error .divides_by_zero ↔ (u16At fmt 10).toInt16.toInt = 0 ∨
      -15 < (u16At fmt 22).toInt16.toInt ∧ (u16At fmt 22).toInt16.toInt ≤ 0 := by
  have bits := signed (u16At fmt 22)
  have channels := signed (u16At fmt 10)
  have bits_small := (u16At fmt 22).toNat_lt
  have channels_small := (u16At fmt 10).toNat_lt
  rw [← frameSize_eq_zero_iff (by omega) (by omega) (by omega) (by omega), readData]
  split
  · exact iff_of_true rfl ‹_›
  · exact iff_of_false (fun same => by cases same) ‹_›

structure Chunk where
  ID : Bytes
  body : Bytes
  pad : UInt8
  ID_length : ID.length = 4
  other : ID ≠ ascii "data"
  small : body.length ≤ 32768

def Chunk.hdr (c : Chunk) : Bytes := c.ID ++ le32 (UInt32.ofNat c.body.length)

def Chunk.padding (c : Chunk) : Bytes := if c.body.length % 2 = 1 then [c.pad] else []

def Chunk.bytes (c : Chunk) : Bytes := c.hdr ++ c.body ++ c.padding

/-- `after` is what follows the samples. -/
structure RiffFile where
  riffSize : UInt32
  formatTag : UInt16
  nChannels : UInt16
  nSamplesPerSec : UInt32
  nAvgBytesPerSec : UInt32
  nBlockAlign : UInt16
  nBitsPerSample : UInt16
  chunks : List Chunk
  data : Bytes
  after : Bytes
  some_channel : 0 < nChannels.toNat
  some_bit : 0 < nBitsPerSample.toNat
  data_small : data.length < 2 ^ 32

namespace RiffFile

def riff (w : RiffFile) : Bytes := ascii "RIFF" ++ (le32 w.riffSize ++ ascii "WAVE")

def fmt (w : RiffFile) : Bytes :=
  ascii "fmt " ++ (le32 16 ++ (le16 w.formatTag ++ (le16 w.nChannels ++ (le32 w.nSamplesPerSec ++
    (le32 w.nAvgBytesPerSec ++ (le16 w.nBlockAlign ++ (le16 w.nBitsPerSample ++ [])))))))

def dataHdr (w : RiffFile) : Bytes := ascii "data" ++ (le32 (UInt32.ofNat w.data.length) ++ [])

def dataChunk (w : RiffFile) : Bytes := w.dataHdr ++ (w.data ++ w.after)

def bytes (w : RiffFile) : Bytes :=
  w.riff ++ w.fmt ++ ((w.chunks.flatMap Chunk.bytes) ++ w.dataChunk)

def frame (w : RiffFile) : Nat := (w.nBitsPerSample.toNat + 7) / 8 * w.nChannels.toNat

/-- The header is read, the count is right and the position is that of the first sample. -/
def Accepted (w : RiffFile) : Prop :=
  ∃ info, waveReadHeader w.bytes = .ok info ∧ info.nFrames.toNat = w.data.length / w.frame ∧
    info.unread = w.data ++ w.after

def Counted (w : RiffFile) : Prop :=
  if w.nBitsPerSample.toNat < 32768 then w.nChannels.toNat < 32768 ∨ w.data.length < w.frame
  else w.nBitsPerSample.toNat ≤ 65521 ∧
    if w.nChannels.toNat < 32768 then w.data.length < w.frame
    else w.data.length / ((65529 - w.nBitsPerSample.toNat) / 8 * (65536 - w.nChannels.toNat)) =
      w.data.length / w.frame

theorem opening (w : RiffFile) : Opening w.riff w.fmt where
  riff_length := by simp [riff, ascii, le32_length]
  riff_ID := rfl
  waveID := rfl
  fmt_length := by simp [fmt, ascii, le32_length, le16_length]
  fmt_ID := rfl
  fmt_size := rfl

theorem isDataHeader (w : RiffFile) : IsDataHeader w.dataHdr (UInt32.ofNat w.data.length) where
  left := by simp [dataHdr, ascii, le32_length]
  right := ⟨rfl, (u32At_le32 rfl _ []).symm⟩

theorem nChannels_read (w : RiffFile) : u16At w.fmt 10 = w.nChannels := by
  have before : (ascii "fmt " ++ le32 16 ++ le16 w.formatTag).length = 10 := by
    simp [ascii, le32_length, le16_length]
  simpa only [fmt, List.append_assoc] using u16At_le16 before w.nChannels _

theorem nBitsPerSample_read (w : RiffFile) : u16At w.fmt 22 = w.nBitsPerSample := by
  have before : (ascii "fmt " ++ le32 16 ++ le16 w.formatTag ++ le16 w.nChannels ++
      le32 w.nSamplesPerSec ++ le32 w.nAvgBytesPerSec ++ le16 w.nBlockAlign).length = 22 := by
    simp [ascii, le32_length, le16_length]
  simpa only [fmt, List.append_assoc] using u16At_le16 before w.nBitsPerSample []

theorem readData_iff (w : RiffFile) (found : Option Bytes × UInt32 × Bytes) (n : Nat) (g : Bytes) :
    (∃ info, readData w.fmt found = .ok info ∧ info.nFrames.toNat = n ∧ info.unread = g) ↔
      frameSize w.nBitsPerSample.toInt16.toInt w.nChannels.toInt16.toInt ≠ 0 ∧
        found.2.1.toNat /
            ((w.nBitsPerSample.toInt16.toInt + 7).tdiv 8 * w.nChannels.toInt16.toInt).toNat = n ∧
          found.2.2 = g := by
  have bits := signed w.nBitsPerSample
  have channels := signed w.nChannels
  have bits_small := w.nBitsPerSample.toNat_lt
  have channels_small := w.nChannels.toNat_lt
  have count := nFrames_toNat found.2.1 w.nBitsPerSample.toInt16.toInt
    w.nChannels.toInt16.toInt (by omega) (by omega) (by omega) (by omega)
  unfold readData
  simp only [nChannels_read, nBitsPerSample_read]
  constructor
  · rintro ⟨info, read, rfl, rfl⟩
    split at read
    · cases read
    · cases read
      exact ⟨‹_›, count.symm, rfl⟩
  · rintro ⟨some_size, rfl, rfl⟩
    rw [if_neg some_size]
    exact ⟨_, rfl, count, rfl⟩

theorem counted_iff (w : RiffFile) :
    w.Counted ↔ frameSize w.nBitsPerSample.toInt16.toInt w.nChannels.toInt16.toInt ≠ 0 ∧
      w.data.length /
          ((w.nBitsPerSample.toInt16.toInt + 7).tdiv 8 * w.nChannels.toInt16.toInt).toNat =
        w.data.length / w.frame := by
  have bits := signed w.nBitsPerSample
  have channels := signed w.nChannels
  have bits_small := w.nBitsPerSample.toNat_lt
  have channels_small := w.nChannels.toNat_lt
  have some_bit := w.some_bit
  have some_channel := w.some_channel
  have bytes := tdiv_eight (w.nBitsPerSample.toInt16.toInt + 7)
  have frame : 0 < w.frame := Nat.mul_pos (by omega) some_channel
  have none : w.data.length / 0 = w.data.length / w.frame ↔ w.data.length < w.frame := by
    rw [Nat.div_zero, eq_comm, Nat.div_eq_zero_iff]
    omega
  rw [Ne, frameSize_eq_zero_iff (by omega) (by omega) (by omega) (by omega), Counted]
  by_cases few_bits : w.nBitsPerSample.toNat < 32768 <;>
    by_cases few_channels : w.nChannels.toNat < 32768
  · have product : ((w.nBitsPerSample.toInt16.toInt + 7).tdiv 8 * w.nChannels.toInt16.toInt).toNat =
        w.frame := by
      have byte_count : (w.nBitsPerSample.toInt16.toInt + 7).tdiv 8 =
          ((w.nBitsPerSample.toNat + 7) / 8 : Nat) := by omega
      have channel_count : w.nChannels.toInt16.toInt = (w.nChannels.toNat : Int) := by omega
      rw [byte_count, channel_count, ← Int.natCast_mul, Int.toNat_natCast, RiffFile.frame]
    rw [if_pos few_bits, product]
    omega
  · have product : ((w.nBitsPerSample.toInt16.toInt + 7).tdiv 8 * w.nChannels.toInt16.toInt).toNat =
        0 := Int.toNat_of_nonpos (Int.mul_nonpos_of_nonneg_of_nonpos (by omega) (by omega))
    rw [if_pos few_bits, product, none]
    omega
  · have product : ((w.nBitsPerSample.toInt16.toInt + 7).tdiv 8 * w.nChannels.toInt16.toInt).toNat =
        0 := Int.toNat_of_nonpos (Int.mul_nonpos_of_nonpos_of_nonneg (by omega) (by omega))
    rw [if_neg few_bits, if_pos few_channels, product, none]
    omega
  · have product : ((w.nBitsPerSample.toInt16.toInt + 7).tdiv 8 * w.nChannels.toInt16.toInt).toNat =
        (65529 - w.nBitsPerSample.toNat) / 8 * (65536 - w.nChannels.toNat) := by
      have byte_count : (w.nBitsPerSample.toInt16.toInt + 7).tdiv 8 =
          -((65529 - w.nBitsPerSample.toNat) / 8 : Nat) := by omega
      have channel_count : w.nChannels.toInt16.toInt = -(65536 - w.nChannels.toNat : Nat) := by omega
      rw [byte_count, channel_count, Int.neg_mul_neg, ← Int.natCast_mul, Int.toNat_natCast]
    rw [if_neg few_bits, if_neg few_channels, product]
    omega

theorem accepted_iff (w : RiffFile) :
    w.Accepted ↔
      Jumps (w.chunks.flatMap Chunk.bytes ++ w.dataChunk) w.dataChunk ∧ w.Counted := by
  have size : (UInt32.ofNat w.data.length).toNat = w.data.length :=
    UInt32.toNat_ofNat_of_lt' w.data_small
  rw [counted_iff, Accepted, bytes, w.opening.reads]
  constructor
  · rintro ⟨info, read, count, unread⟩
    cases found : readChunks none (w.chunks.flatMap Chunk.bytes ++ w.dataChunk) with
    | error failure =>
      rw [found] at read
      cases read
    | ok found' =>
      rw [found] at read
      obtain ⟨auxi, size', g⟩ := found'
      obtain ⟨some_size, count, rfl⟩ := (w.readData_iff _ _ _).mp ⟨info, read, count, unread⟩
      obtain ⟨hdr, data, jumps⟩ := jumps_of_reads found
      have same : hdr = w.dataHdr :=
        (List.append_inj ((List.suffix_of_suffix_length_le jumps.suffix
          (List.suffix_append _ _) (by simp [dataChunk, data.length, w.isDataHeader.length])).eq_of_length
            (by simp [dataChunk, data.length, w.isDataHeader.length]))
          (data.length.trans w.isDataHeader.length.symm)).1
      subst same
      obtain rfl : size' = UInt32.ofNat w.data.length := data.2.2.trans w.isDataHeader.2.2.symm
      rw [size] at count
      exact ⟨jumps, some_size, count⟩
  · rintro ⟨jumps, some_size, count⟩
    obtain ⟨auxi, found⟩ := jumps.reads w.isDataHeader none
    rw [found]
    exact (w.readData_iff _ _ _).mpr ⟨some_size, by rwa [size], rfl⟩

end RiffFile

theorem Chunk.header_length (c : Chunk) : c.hdr.length = 8 := by
  simp [Chunk.hdr, le32_length, c.ID_length]

theorem Chunk.header_size (c : Chunk) : (u32At c.hdr 4).toNat = c.body.length := by
  have small := c.small
  have size := u32At_le32 c.ID_length (UInt32.ofNat c.body.length) []
  rw [List.append_nil] at size
  rw [Chunk.hdr, size, UInt32.toNat_ofNat_of_lt' (Nat.lt_of_le_of_lt small (by decide))]

theorem Chunk.header_ID (c : Chunk) : c.hdr.take 4 = c.ID := by
  rw [Chunk.hdr, ← c.ID_length, List.take_left]

theorem Chunk.jumps_iff (c : Chunk) {f g : Bytes} (later : g.length < (c.bytes ++ f).length) :
    Jumps (c.bytes ++ f) g ↔
      0 < c.body.length ∧ (c.ID = ascii "auxi" → auxiSize ≤ c.body.length) ∧
        Jumps (c.padding ++ f) g := by
  have apart : c.bytes ++ f = c.hdr ++ c.body ++ (c.padding ++ f) := by
    simp [Chunk.bytes]
  rw [apart] at later ⊢
  constructor
  · intro jumps
    rw [List.append_assoc] at later jumps
    obtain ⟨body, f', behind, stride, rest⟩ := jumps.first c.header_length later
    obtain ⟨same, rfl⟩ := List.append_inj behind (c.header_size.symm.trans stride.size.symm)
    subst same
    exact ⟨stride.some_bytes, fun ID => stride.auxi (c.header_ID.trans ID), rest⟩
  · rintro ⟨some_bytes, long, rest⟩
    have stride : Stride c.hdr c.body := {
      header := c.header_length
      other := c.header_ID.symm ▸ c.other
      size := c.header_size.symm
      some_bytes := some_bytes
      small := c.small
      auxi := fun ID => long (c.header_ID.symm.trans ID) }
    exact .past stride rest

/-- A chunk that the reader gets over. -/
structure Chunk.Plain (c : Chunk) : Prop where
  some_bytes : 0 < c.body.length
  even : c.body.length % 2 = 0
  auxi : c.ID = ascii "auxi" → auxiSize ≤ c.body.length

theorem Chunk.Plain.padding {c : Chunk} (plain : c.Plain) : c.padding = [] := by
  rw [Chunk.padding, if_neg (by rw [plain.even]; decide)]

theorem longer (chunks : List Chunk) (c : Chunk) (g : Bytes) :
    g.length < (c.bytes ++ (chunks.flatMap Chunk.bytes ++ g)).length := by
  have header := c.header_length
  simp only [Chunk.bytes, List.length_append]
  omega

theorem plain_jumps {plain chunks : List Chunk} (all : ∀ c ∈ plain, c.Plain) (g : Bytes) :
    Jumps ((plain ++ chunks).flatMap Chunk.bytes ++ g) g ↔
      Jumps (chunks.flatMap Chunk.bytes ++ g) g := by
  induction plain with
  | nil => exact Iff.rfl
  | cons c plain ih =>
    have first := all c List.mem_cons_self
    rw [List.cons_append, List.flatMap_cons, List.append_assoc,
      c.jumps_iff (longer (plain ++ chunks) c g), first.padding, List.nil_append,
      ih fun c' member => all c' (List.mem_cons_of_mem c member)]
    exact ⟨fun jumps => jumps.2.2, fun jumps => ⟨first.some_bytes, first.auxi, jumps⟩⟩

namespace RiffFile

theorem not_accepted_of_empty {w : RiffFile} {plain chunks : List Chunk} {c : Chunk}
    (parts : w.chunks = plain ++ c :: chunks) (all : ∀ c ∈ plain, c.Plain) (empty : c.body = []) :
    ¬ w.Accepted := by
  rw [accepted_iff, parts, plain_jumps all, List.flatMap_cons, List.append_assoc,
    c.jumps_iff (longer chunks c w.dataChunk), empty]
  exact fun accepted => absurd accepted.1.1 (Nat.lt_irrefl 0)

end RiffFile

theorem readChunks_error (auxi : Option Bytes) (f : Bytes) :
    readChunks auxi f ≠ .error .divides_by_zero := by
  fun_induction readChunks auxi f <;> first | assumption | (intro same; cases same)

/-- The reader comes to the data of a file without a channel, or without a bit. -/
def ZeroFrame (file : Bytes) : Prop :=
  ∃ riff fmt rest hdr size g, file = riff ++ fmt ++ rest ∧ Opening riff fmt ∧
    IsDataHeader hdr size ∧ Jumps rest (hdr ++ g) ∧
      ((u16At fmt 10).toInt16.toInt = 0 ∨
        -15 < (u16At fmt 22).toInt16.toInt ∧ (u16At fmt 22).toInt16.toInt ≤ 0)

theorem divides_iff (file : Bytes) :
    waveReadHeader file = .error .divides_by_zero ↔ ZeroFrame file := by
  constructor
  · intro divides
    obtain ⟨riff, fmt, rest, rfl, opening⟩ := opening_of_reads fun rv code => by
      rw [divides] at code
      cases code
    rw [opening.reads] at divides
    cases found : readChunks none rest with
    | error failure =>
      rw [found] at divides
      cases divides
      exact absurd found (readChunks_error none rest)
    | ok found' =>
      obtain ⟨auxi, size, g⟩ := found'
      rw [found] at divides
      obtain ⟨hdr, data, jumps⟩ := jumps_of_reads found
      exact ⟨riff, fmt, rest, hdr, size, g, rfl, opening, data, jumps,
        (readData_divides_iff fmt _).mp divides⟩
  · rintro ⟨riff, fmt, rest, hdr, size, g, rfl, opening, data, jumps, zero⟩
    obtain ⟨auxi, found⟩ := jumps.reads data none
    rw [opening.reads, found]
    exact (readData_divides_iff fmt _).mpr zero

/-- A file of the format is accepted if the sizes lead to the data and the frame is not negative;
    the division goes wrong without a channel or without a bit. -/
theorem riff_accepted_iff (w : RiffFile) (file : Bytes) :
    (w.Accepted ↔
        Jumps (w.chunks.flatMap Chunk.bytes ++ w.dataChunk) w.dataChunk ∧ w.Counted) ∧
      (waveReadHeader file ≠ .error .divides_by_zero ↔ ¬ ZeroFrame file) :=
  ⟨w.accepted_iff, not_congr (divides_iff file)⟩

def twoSamples (chunks : List Chunk) : RiffFile where
  riffSize := 0
  formatTag := 1
  nChannels := 1
  nSamplesPerSec := 8000
  nAvgBytesPerSec := 8000
  nBlockAlign := 1
  nBitsPerSample := 8
  chunks := chunks
  data := [1, 2]
  after := []
  some_channel := by decide
  some_bit := by decide
  data_small := by decide

def emptyChunk : Chunk := ⟨ascii "LIST", [], 0, rfl, by decide, by decide⟩

def oddChunk : Chunk := ⟨ascii "LIST", [7], 0, rfl, by decide, by decide⟩

def noChannel : Bytes :=
  (twoSamples []).riff ++ (ascii "fmt " ++ le32 16 ++ List.replicate 14 0 ++ le16 8) ++
    (twoSamples []).dataChunk

theorem riff_not_accepted :
    ¬ ((∀ w : RiffFile, w.Accepted) ∧ ∀ file : Bytes, waveReadHeader file ≠ .error .divides_by_zero) ∧
      ¬ (twoSamples [emptyChunk]).Accepted ∧ ¬ (twoSamples [oddChunk]).Accepted ∧
        waveReadHeader noChannel = .error .divides_by_zero := by
  have empty : ¬ (twoSamples [emptyChunk]).Accepted :=
    RiffFile.not_accepted_of_empty (rfl : _ = [] ++ _ :: _) nofun rfl
  have odd : ¬ (twoSamples [oddChunk]).Accepted := by
    rw [RiffFile.accepted_iff]
    rintro ⟨jumps, -⟩
    have behind : Jumps ([0, 100, 97, 116, 97, 2, 0, 0] ++ [0, 1, 2]) _ :=
      ((oddChunk.jumps_iff (longer [] oddChunk _)).mp jumps).2.2
    -- With the pad byte before it, the header of the data tells of 609 bytes.
    obtain ⟨body, rest, three, stride, -⟩ :=
      behind.first rfl (by decide)
    have long : body.length = 609 := stride.size
    have short : body.length + rest.length = 3 := by rw [← List.length_append, ← three]; rfl
    omega
  exact ⟨fun chunk => empty (chunk.1 _), empty, odd,
    (divides_iff _).mpr ⟨(twoSamples []).riff, _, (twoSamples []).dataChunk, (twoSamples []).dataHdr,
      _, _, rfl, ⟨rfl, rfl, rfl, rfl, rfl, rfl⟩, (twoSamples []).isDataHeader, .here _, .inl rfl⟩⟩

end Soapy.Rtl.Wave
