import MeterLogger.Decimal
import MeterLogger.CStrings

/-!
# EN 61107 replies

What the meter answers to the four requests, and the response structure the answers are read into.
The registers of the data readout come as `rid(value*unit)`; the other answers are rows of
numerals, and the place of a numeral says what it means.
-/

namespace MeterLogger
namespace En61107

open CStrings Decimal

def en61107FrameL : ℕ := 1024
def en61107RegisterL : ℕ := 32
def en61107RidL : ℕ := 6
def en61107UnitL : ℕ := 5
def en61107ValueL : ℕ := 10
def en61107CustomerNoL : ℕ := 13
def en61107MeterTypeL : ℕ := 8

/-- The variants of the program. -/
structure Build where
  mc66b : Bool
  flowMeter : Bool

structure Register where
  value : List UInt8
  unit : List UInt8
  deriving DecidableEq

structure MeterProgram where
  a : ℕ
  b : ℕ
  ccc : ℕ
  dd : ℕ
  e : ℕ
  ff : ℕ
  gg : ℕ
  deriving DecidableEq

structure Response where
  customerNo : List UInt8
  meterType : List UInt8
  meterProgram : MeterProgram
  t1 : Register
  t2 : Register
  t3 : Register
  tdif : Register
  flow1 : Register
  effect1 : Register
  hr : Register
  v1 : Register
  e1 : Register
  deriving DecidableEq

def zeroRegister : Register := ⟨[],[]⟩

/-- The response as `en61107_request_init` clears it. -/
def zeroResponse : Response where
  customerNo := []
  meterType := []
  meterProgram := ⟨0,0,0,0,0,0,0⟩
  t1 := zeroRegister
  t2 := zeroRegister
  t3 := zeroRegister
  tdif := zeroRegister
  flow1 := zeroRegister
  effect1 := zeroRegister
  hr := zeroRegister
  v1 := zeroRegister
  e1 := zeroRegister

/-- The floats of the machine: `read` is the value `tfp_vsscanf` makes of a numeral, `print d p`
prints a value divided by `d` with `p` places, `printFloat` without a precision, and `printInt`
the integer part. -/
structure Floats where
  Value : Type
  read : List UInt8 → Value
  print : ℕ → ℕ → Value → List UInt8
  printFloat : Value → List UInt8
  printInt : Value → List UInt8

/-- Whether `%f` finds a number: a digit, maybe behind blanks, a sign and a point. -/
def scans (p : List UInt8) : Bool :=
  let p := p.dropWhile (· = 32)
  let p := if p.head? = some 45 then p.drop 1 else p
  match p with
  | [] => false
  | 46::c => (c.head?.map isDigit).getD false
  | c::_ => isDigit c

/-- `tfp_vsscanf(p, "%f", &value)`. -/
def vsscanf (F : Floats) (p : List UInt8) (value : F.Value) : F.Value :=
  if scans p then F.read p else value

/-- `tfp_snprintf` into a field of `n` bytes. -/
def snprintf (n : ℕ) (text : List UInt8) : List UInt8 := text.take (n-1)

def setRegister (value : List UInt8) (unit : String) : Register :=
  ⟨snprintf en61107ValueL value,snprintf en61107UnitL (ascii unit)⟩

def tokenLoop {S : Type*} (token : ℕ → List UInt8 → S → S) : ℕ → List (List UInt8) → S → S
  | _, [], s => s
  | i, p::ps, s => tokenLoop token (i+1) ps (token i p s)

/-- A token of the answer to `/#1`; the value scanned last stays for a token that is no number. -/
def standardData1Token (F : Floats) (i : ℕ) (p : List UInt8) (s : F.Value × Response) :
    F.Value × Response :=
  let value := vsscanf F p s.1
  match i with
  | 3 => (value,{ s.2 with t1 := setRegister (F.print 100 2 value) "C" })
  | 4 => (value,{ s.2 with t2 := setRegister (F.print 100 2 value) "C" })
  | 5 => (value,{ s.2 with tdif := setRegister (F.print 100 2 value) "C" })
  | 6 => (value,{ s.2 with effect1 := setRegister (F.print 10 3 value) "kW" })
  | 7 => (value,{ s.2 with flow1 := setRegister (F.printInt value) "l/h" })
  | _ => s

/-- `stack` is what the local variable holds at first. -/
def parseMc66cdeStandardData1Frame (F : Floats) (stack : F.Value) (response : Response)
    (frame : List UInt8) : Response × Bool :=
  ((tokenLoop (standardData1Token F) 0 (segments 32 (cstr frame)) (stack,response)).2,true)

/-- `atoi` of `n` bytes, stored in `bits` bits. -/
def field (p : List UInt8) (start n bits : ℕ) : ℕ :=
  (atoi ((p.drop start).take n)%2^bits).toNat

def standardData2Token (i : ℕ) (p : List UInt8) (r : Response) : Response :=
  match i with
  | 7 =>
    if 7 ≤ p.length then
      { r with meterProgram := { r.meterProgram with
        a := field p 2 1 8, b := field p 3 1 8, ccc := field p 4 3 32 } }
    else r
  | 8 =>
    if 7 ≤ p.length then
      { r with meterProgram := { r.meterProgram with
        dd := field p 0 2 16, e := field p 2 1 8, ff := field p 3 2 16, gg := field p 5 2 16 } }
    else r
  | _ => r

def parseMc66cdeStandardData2Frame (response : Response) (frame : List UInt8) : Response × Bool :=
  (tokenLoop standardData2Token 0 (segments 32 (cstr frame)) response,true)

def instValuesToken (F : Floats) (i : ℕ) (p : List UInt8) (s : F.Value × Response) :
    F.Value × Response :=
  match i with
  | 1 =>
    let value := vsscanf F p s.1
    (value,{ s.2 with t3 := setRegister (F.print 100 3 value) "C" })
  | _ => s

def parseMc66cdeInstValuesFrame (F : Floats) (stack : F.Value) (response : Response)
    (frame : List UInt8) : Response × Bool :=
  ((tokenLoop (instValuesToken F) 0 (segments 32 (cstr frame)) (stack,response)).2,true)

inductive FrameResult
  | ok
  | unknown
  | emptyFrame
  | noStx
  | noEtx
  | bccMismatch
  | meterTypeBounds
  deriving DecidableEq

/-- The register a `rid` names, if it is kept. -/
inductive Rid
  | energy
  | volume
  | hours

def ridOf (rid : List UInt8) : Option Rid :=
  if rid = ascii "6.8" then some .energy
  else if rid = ascii "6.26" then some .volume
  else if rid = ascii "6.31" then some .hours
  else none

def en61107ResponseSetValue (response : Response) (rid value : List UInt8) : Response :=
  let value := value.take (en61107ValueL-1)
  match ridOf rid with
  | some .energy => { response with e1 := { response.e1 with value := value } }
  | some .volume => { response with v1 := { response.v1 with value := value } }
  | some .hours => { response with hr := { response.hr with value := value } }
  | none => response

def en61107ResponseSetUnit (response : Response) (rid unit : List UInt8) : Response :=
  let unit := unit.take (en61107UnitL-1)
  match ridOf rid with
  | some .energy => { response with e1 := { response.e1 with unit := unit } }
  | some .volume => { response with v1 := { response.v1 with unit := unit } }
  | some .hours => { response with hr := { response.hr with unit := unit } }
  | none => response

/-- The locals that the loop over the registers keeps from one register to the next. -/
structure Locals (F : Floats) where
  rid : List UInt8
  value : F.Value
  response : Response

/-- The bytes before the first `c`, and those behind it. -/
def cutAt (s : List UInt8) (c : UInt8) : Option (List UInt8 × List UInt8) :=
  (strchr s c).map fun rest => (s.take (s.length-rest.length),rest.drop 1)

/-- One `rid(value*unit)` or `rid(number)`. -/
def parseRegister (F : Floats) (l : Locals F) (register : List UInt8) : Locals F :=
  let (l,p) := match cutAt register 40 with
    | some (rid,_) => ({ l with rid := rid.take (en61107RidL-1) },
        register.drop ((rid.take (en61107RidL-1)).length+1))
    | none => (l,register)
  let (l,p) := match cutAt p 42 with
    | some (_,rest) =>
      let value := vsscanf F p l.value
      ({ l with
        value := value
        response := en61107ResponseSetValue l.response l.rid
          (snprintf en61107ValueL (F.printFloat value)) },rest)
    | none => (l,p)
  match cutAt p 41 with
  | some (text,_) =>
    if l.rid.head? = some 48 then
      { l with response := { l.response with customerNo := text.take (en61107CustomerNoL-1) } }
    else { l with response := en61107ResponseSetUnit l.response l.rid text }
  | none => l

/-- The loop over the registers of a readout, at most `n` of them; what is left behind the last
separator. A register that is too long is cut, and the next one starts where it was cut. -/
def registerLoop (b : Build) (F : Floats) : ℕ → Locals F → List UInt8 → Locals F × List UInt8
  | 0, l, p => (l,p)
  | n+1, l, p =>
    match strstr p (if b.mc66b then ascii ")" else ascii "\r\n") with
    | none => (l,p)
    | some pos =>
      let length := min (p.length-pos.length+if b.mc66b then 1 else 0) (en61107RegisterL-1)
      registerLoop b F n (parseRegister F l (p.take length))
        (p.drop (length+if b.mc66b then 0 else 2))

/-- Every turn of the loop takes a byte at least. -/
def parseRegisters (b : Build) (F : Floats) (l : Locals F) (text : List UInt8) : Locals F :=
  let (l,p) := registerLoop b F text.length l text
  if b.mc66b then l else parseRegister F l (p.take (en61107RegisterL-1))

/-- The checksum at the first ETX, from the last STX before it on. -/
def checkBcc (bcc : UInt8) : UInt8 → List UInt8 → Option Bool
  | _, [] => none
  | sum, c::cs =>
    if c = 2 then checkBcc bcc 0 cs
    else
      let sum := (sum+c) &&& 0x7f
      if c = 3 then some (bcc = sum) else checkBcc bcc sum cs

/-- The data block: behind the STX and the line it begins, up to the end marker. -/
def dataBlock (frame : List UInt8) : List UInt8 :=
  match strstr (cstr frame) [33,13,10,3] with
  | none => []
  | some pos => (cstr frame).take (min ((cstr frame).length-pos.length) (en61107FrameL-1))

/-- `stack` is what the local variables hold at first. -/
def parseEn61107Frame (b : Build) (F : Floats) (stack : List UInt8 × F.Value)
    (response : Response) (frame : List UInt8) : Response × FrameResult :=
  if frame.length = 0 then (response,.emptyFrame)
  else
    match strstr (cstr frame) [2] with
    | none => (response,.noStx)
    | some pos =>
      match checkBcc (frame.getLastD 0 &&& 0x7f) 0 frame with
      | none => (response,.noEtx)
      | some false => (response,.bccMismatch)
      | some true =>
        let length := (cstr frame).length-pos.length
        if length ≤ 3 ∨ en61107MeterTypeL ≤ length-3 then
          ({ response with meterType := [] },.meterTypeBounds)
        else
          let response := { response with meterType := (frame.drop 1).take (length-3) }
          ((parseRegisters b F ⟨stack.1,stack.2,response⟩
            (dataBlock (frame.drop (length+3)))).response,.ok)

end En61107
end MeterLogger
