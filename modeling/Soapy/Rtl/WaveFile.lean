import Soapy.Lib.Bytes

/-! # WAV files

`wavewrite.c` writes a header, appends samples and writes the header once more at the end;
`waveread.c` reads it back. A header is stored as a little endian host keeps it. A file that is read
is given by its bytes from the current position on.
-/

namespace Soapy.Rtl.Wave

open Lib

def le16 (v : UInt16) : Bytes := toLE 2 v.toNat

def le32 (v : UInt32) : Bytes := toLE 4 v.toNat

def u16At (bytes : Bytes) (i : Nat) : UInt16 := UInt16.ofNat (ofLE ((bytes.drop i).take 2))

def u32At (bytes : Bytes) (i : Nat) : UInt32 := UInt32.ofNat (ofLE ((bytes.drop i).take 4))

structure chunk_hdr where
  ID : Bytes
  size : UInt32

def chunk_hdr.bytes (h : chunk_hdr) : Bytes := h.ID ++ le32 h.size

structure Wind_SystemTime where
  wYear : UInt16
  wMonth : UInt16
  wDayOfWeek : UInt16
  wDay : UInt16
  wHour : UInt16
  wMinute : UInt16
  wSecond : UInt16
  wMilliseconds : UInt16

def Wind_SystemTime.bytes (t : Wind_SystemTime) : Bytes :=
  le16 t.wYear ++ le16 t.wMonth ++ le16 t.wDayOfWeek ++ le16 t.wDay ++ le16 t.wHour ++
    le16 t.wMinute ++ le16 t.wSecond ++ le16 t.wMilliseconds

structure riff_chunk where
  hdr : chunk_hdr
  waveID : Bytes

def riff_chunk.bytes (r : riff_chunk) : Bytes := r.hdr.bytes ++ r.waveID

structure fmt_chunk where
  hdr : chunk_hdr
  wFormatTag : Int16
  nChannels : Int16
  nSamplesPerSec : Int32
  nAvgBytesPerSec : Int32
  nBlockAlign : Int16
  nBitsPerSample : Int16

def fmt_chunk.bytes (f : fmt_chunk) : Bytes :=
  f.hdr.bytes ++ le16 f.wFormatTag.toUInt16 ++ le16 f.nChannels.toUInt16 ++
    le32 f.nSamplesPerSec.toUInt32 ++ le32 f.nAvgBytesPerSec.toUInt32 ++
    le16 f.nBlockAlign.toUInt16 ++ le16 f.nBitsPerSample.toUInt16

/-- The five last fields are `IFFrequency`, `Bandwidth`, `IQOffset` and the unused ones, which stay
zero. -/
structure auxi_chunk where
  hdr : chunk_hdr
  StartTime : Wind_SystemTime
  StopTime : Wind_SystemTime
  centerFreq : UInt32
  ADsamplerate : UInt32
  IFFrequency : UInt32
  Bandwidth : UInt32
  IQOffset : UInt32
  Unused2 : UInt32
  Unused3 : UInt32
  Unused4 : UInt32
  Unused5 : UInt32

def auxi_chunk.bytes (a : auxi_chunk) : Bytes :=
  a.hdr.bytes ++ (a.StartTime.bytes ++ a.StopTime.bytes ++ le32 a.centerFreq ++
    le32 a.ADsamplerate ++ le32 a.IFFrequency ++ le32 a.Bandwidth ++ le32 a.IQOffset ++
    le32 a.Unused2 ++ le32 a.Unused3 ++ le32 a.Unused4 ++ le32 a.Unused5)

structure waveFileHeader where
  r : riff_chunk
  f : fmt_chunk
  a : auxi_chunk
  d : chunk_hdr

def waveFileHeader.bytes (h : waveFileHeader) : Bytes :=
  h.r.bytes ++ h.f.bytes ++ h.a.bytes ++ h.d.bytes

/-- `sizeof(waveFileHeader)`. -/
def headerSize : Nat := 120

structure File where
  bytes : Bytes
  pos : Nat

/-- `fwrite`, where every write succeeds. -/
def File.fwrite (f : File) (data : Bytes) : File :=
  { bytes := f.bytes.take f.pos ++ data ++ f.bytes.drop (f.pos + data.length)
    pos := f.pos + data.length }

def File.rewind (f : File) : File := { f with pos := 0 }

/-- The static variables of `wavewrite.c`, and the file. -/
structure Writer where
  waveHdr : waveFileHeader
  waveDataSize : UInt32
  waveHdrStarted : Bool
  file : File

/-- `now` is what the clock says. -/
def wavePrepareHeader (now : Wind_SystemTime) (samplerate freq : UInt32)
    (bitsPerSample numChannels : Int) : waveFileHeader :=
  let bytesPerSample := bitsPerSample.tdiv 8
  let bytesPerFrame := bytesPerSample * numChannels
  { r := ⟨⟨ascii "RIFF", UInt32.ofNat (headerSize - 8)⟩, ascii "WAVE"⟩
    f :=
      { hdr := ⟨ascii "fmt ", 16⟩
        wFormatTag := 1
        nChannels := Int16.ofInt numChannels
        nSamplesPerSec := samplerate.toInt32
        nAvgBytesPerSec := (samplerate * UInt32.ofInt bytesPerFrame).toInt32
        nBlockAlign := Int16.ofInt numChannels
        nBitsPerSample := Int16.ofInt bitsPerSample }
    a :=
      { hdr := ⟨ascii "auxi", 68⟩
        StartTime := now
        StopTime := now
        centerFreq := freq
        ADsamplerate := samplerate
        IFFrequency := 0
        Bandwidth := 0
        IQOffset := 0
        Unused2 := 0
        Unused3 := 0
        Unused4 := 0
        Unused5 := 0 }
    d := ⟨ascii "data", 0⟩ }

def waveWriteHeader (now : Wind_SystemTime) (samplerate freq : UInt32)
    (bitsPerSample numChannels : Int) : Writer :=
  let waveHdr := wavePrepareHeader now samplerate freq bitsPerSample numChannels
  { waveHdr := waveHdr
    waveDataSize := 0
    waveHdrStarted := true
    file := (File.mk [] 0).fwrite waveHdr.bytes }

/-- `fwrite` of so many items of one size, and the count of their bytes. -/
def Writer.items (w : Writer) (vpData : Bytes) (size num : Nat) : Writer :=
  { w with
    file := w.file.fwrite (vpData.take (size * num))
    waveDataSize := w.waveDataSize + UInt32.ofNat (size * num) }

/-- `nChannels * sizeof(..)`, which is of type `size_t`. -/
def itemSize (nChannels : Int) (bytes : Nat) : Nat :=
  (UInt64.ofInt nChannels * UInt64.ofNat bytes).toNat

def waveWriteSamples (w : Writer) (vpData : Bytes) (numSamples : Nat) : Writer :=
  if w.waveHdr.f.nBitsPerSample = 8 then w.items vpData 1 numSamples
  else if w.waveHdr.f.nBitsPerSample = 16 then w.items vpData 2 numSamples
  else w

def waveWriteFrames (w : Writer) (vpData : Bytes) (numFrames : Nat) : Writer :=
  if w.waveHdr.f.nBitsPerSample = 8 then
    w.items vpData (itemSize w.waveHdr.f.nChannels.toInt 1) numFrames
  else if w.waveHdr.f.nBitsPerSample = 16 then
    w.items vpData (itemSize w.waveHdr.f.nChannels.toInt 2) numFrames
  else w

def waveFinalizeHeader (later : Wind_SystemTime) (w : Writer) : Writer :=
  let waveHdr := { w.waveHdr with
    a := { w.waveHdr.a with StopTime := later }
    d := { w.waveHdr.d with size := w.waveDataSize }
    r := { w.waveHdr.r with
      hdr := { w.waveHdr.r.hdr with size := w.waveHdr.r.hdr.size + w.waveDataSize } } }
  { w with
    waveHdr := waveHdr
    waveHdrStarted := false
    file := w.file.rewind.fwrite waveHdr.bytes }

/-- Why a header is not read. -/
inductive Failure where
  | code (rv : Nat)
  | divides_by_zero
deriving DecidableEq

/-- `fread` of one item: `none` where it does not return 1. -/
def fread (size : Nat) (f : Bytes) : Option (Bytes × Bytes) :=
  if 0 < size ∧ size ≤ f.length then some (f.take size, f.drop size) else none

/-- `sizeof(buf)`. -/
def bufSize : Nat := 32768

/-- `sizeof(auxi_chunk) - sizeof(chunk_hdr)`. -/
def auxiSize : Nat := 68

theorem fread_shorter {size : Nat} {f item rest : Bytes} (read : fread size f = some (item, rest)) :
    rest.length < f.length := by
  rw [fread] at read
  split at read
  · rename_i here
    cases read
    rw [List.length_drop]
    omega
  · cases read

/-- The loop over the chunks up to the data. It returns the last `auxi` chunk, the size of the data
and the position behind its header. -/
def readChunks (auxi : Option Bytes) (f : Bytes) : Except Failure (Option Bytes × UInt32 × Bytes) :=
  match _h : fread 8 f with
  | none => .error (.code 30)
  | some (hdr, rest) =>
    let ID := hdr.take 4
    let size := u32At hdr 4
    if ID = ascii "auxi" then
      if bufSize < size.toNat then .error (.code 32)
      else if size.toNat < auxiSize then .error (.code 33)
      else
        match _h' : fread size.toNat rest with
        | none => .error (.code 34)
        | some (buf, rest') => readChunks (some (buf.take auxiSize)) rest'
    else if ID = ascii "data" then .ok (auxi, size, rest)
    else if bufSize < size.toNat then .error (.code 32)
    else
      match _h' : fread size.toNat rest with
      | none => .error (.code 34)
      | some (_, rest') => readChunks auxi rest'
termination_by f.length
decreasing_by
  · exact Nat.lt_trans (fread_shorter _h') (fread_shorter _h)
  · exact Nat.lt_trans (fread_shorter _h') (fread_shorter _h)

/-- What `waveReadHeader` gives, with the `fmt ` and `auxi` chunks that the other functions look at,
and the bytes from the position on that it leaves. -/
structure WaveInfo where
  srate : UInt32
  freq : UInt32
  bitsPerSample : Int
  numChannels : Int
  nFrames : UInt32
  formatTag : Int16
  auxi : Option Bytes
  unread : Bytes

/-- `smpSize`. -/
def frameSize (bitsPerSample numChannels : Int) : UInt64 :=
  UInt64.ofInt ((bitsPerSample + 7).tdiv 8) * UInt64.ofInt numChannels

/-- Behind the chunks. -/
def readData (f : Bytes) (found : Option Bytes × UInt32 × Bytes) : Except Failure WaveInfo :=
  let bitsPerSample := (u16At f 22).toInt16.toInt
  let numChannels := (u16At f 10).toInt16.toInt
  let smpSize := frameSize bitsPerSample numChannels
  if smpSize = 0 then .error .divides_by_zero
  else .ok
    { srate := u32At f 12
      freq := match found.1 with
        | some a => u32At a 32
        | none => 100 * 1000 * 1000
      bitsPerSample := bitsPerSample
      numChannels := numChannels
      nFrames := (found.2.1.toUInt64 / smpSize).toUInt32
      formatTag := (u16At f 8).toInt16
      auxi := found.1
      unread := found.2.2 }

def waveReadHeader (file : Bytes) : Except Failure WaveInfo :=
  match fread 12 file with
  | none => .error (.code 10)
  | some (r, file) =>
    if r.take 4 ≠ ascii "RIFF" then .error (.code 11)
    else if (r.drop 8).take 4 ≠ ascii "WAVE" then .error (.code 12)
    else
      match fread 24 file with
      | none => .error (.code 20)
      | some (f, file) =>
        if f.take 4 ≠ ascii "fmt " then .error (.code 21)
        else if u32At f 4 ≠ 16 then .error (.code 22)
        else (readChunks none file).bind (readData f)

/-- What `waveReadFrames` returns, how many frames it has read and which bytes, and what is left. -/
structure FramesRead where
  ret : Nat
  numRead : Nat
  data : Bytes
  unread : Bytes
deriving DecidableEq

def freadItems (size num : Nat) (f : Bytes) : FramesRead :=
  let numRead := if size = 0 then 0 else min num (f.length / size)
  ⟨if numRead = num then 0 else 1, numRead, f.take (size * num), f.drop (size * num)⟩

/-- `none` where it returns at once. -/
def waveReadFrames (info : WaveInfo) (numFrames : Nat) : Option FramesRead :=
  if info.bitsPerSample = 8 then some (freadItems (itemSize info.numChannels 1) numFrames info.unread)
  else if info.bitsPerSample = 16 then
    some (freadItems (itemSize info.numChannels 2) numFrames info.unread)
  else none

end Soapy.Rtl.Wave
