import TxLcn.Lib.Long
import TxLcn.Lib.Exec

/-!
# The id generator of a TM

`Snowflake` packs a millisecond timestamp, a data centre, a worker and a
sequence number into one `long`:

    0 - 41 bits of milliseconds - 5 bits dataCenterId - 5 bits workerId - 12 bits sequence

`nextId` reads the clock through `genTime`. A call is therefore a function of
the generator and of the readings it takes; the readings of one call are handed
to it as a list, and a call that has not returned after the last of them is
still spinning in `tilNextMillis`.
-/

namespace TxLcn.Tm

open TxLcn.Lib

namespace Snowflake

def workerIdBits : Nat := 5

def dataCenterIdBits : Nat := 5

/-- The worker id is at most 31. -/
def maxWorkerId : Long := -1 ^^^ (-1 <<< workerIdBits)

/-- The data centre id is at most 31. -/
def maxDataCenterId : Long := -1 ^^^ (-1 <<< dataCenterIdBits)

def sequenceBits : Nat := 12

def workerIdShift : Nat := sequenceBits

def dataCenterIdShift : Nat := sequenceBits + workerIdBits

def timestampLeftShift : Nat := sequenceBits + workerIdBits + dataCenterIdBits

def sequenceMask : Long := -1 ^^^ (-1 <<< sequenceBits)

end Snowflake

/-- A generator: its identity and the two fields `nextId` writes. -/
structure Snowflake where
  twepoch : Long
  workerId : Long
  dataCenterId : Long
  sequence : Long := 0
  lastTimestamp : Long := -1
  deriving Repr, DecidableEq

namespace Snowflake

/-- The epoch used when the constructor is given none. -/
def defaultEpoch : Long := 1288834974657

/-- The constructor; `error` carries the text of its `IllegalArgumentException`. -/
def create (epochDate : Option Long) (workerId dataCenterId : Long) : Except String Snowflake :=
  let twepoch := epochDate.getD defaultEpoch
  if maxWorkerId.slt workerId || workerId.slt 0 then
    .error ("worker Id can't be greater than " ++ toString maxWorkerId.toInt ++
      "  or less than 0")
  else if maxDataCenterId.slt dataCenterId || dataCenterId.slt 0 then
    .error ("dataCenterId Id can't be greater than " ++ toString maxDataCenterId.toInt ++
      " or less than 0")
  else .ok { twepoch, workerId, dataCenterId }

/-- The text of the `IllegalStateException` for a clock that is `ms` behind. -/
def clockMovedBackwards (ms : Long) : String :=
  "Clock moved backwards. Refusing to generate id for " ++ toString ms.toInt ++ " ms"

/-- Wait for a reading other than `lastTimestamp`; the readings left over come back too. -/
def tilNextMillis (lastTimestamp : Long) : List Long → Option (Except String Long × List Long)
  | [] => none
  | timestamp :: clock =>
      if timestamp = lastTimestamp then tilNextMillis lastTimestamp clock
      else if timestamp.slt lastTimestamp then
        some (.error (clockMovedBackwards (lastTimestamp - timestamp)), clock)
      else some (.ok timestamp, clock)

/-- Two seconds of going back are tolerated, more are refused. -/
def tolerate (lastTimestamp timestamp : Long) : Except String Long :=
  if timestamp.slt lastTimestamp then
    if (lastTimestamp - timestamp).slt 2000 then .ok lastTimestamp
    else .error (clockMovedBackwards (lastTimestamp - timestamp))
  else .ok timestamp

/-- The id made of a timestamp, the generator's own identity and a sequence number. -/
def compose (s : Snowflake) (timestamp sequence : Long) : Long :=
  ((timestamp - s.twepoch) <<< timestampLeftShift) ||| (s.dataCenterId <<< dataCenterIdShift) |||
    (s.workerId <<< workerIdShift) ||| sequence

/-- What a call of `nextId` leaves behind: its answer, the generator, the unused readings. -/
abbrev Call := Except String Long × Snowflake × List Long

/-- The last lines of `nextId`: store the timestamp and put the id together. -/
def issue (s : Snowflake) (timestamp sequence : Long) (clock : List Long) : Call :=
  (.ok (s.compose timestamp sequence), { s with sequence, lastTimestamp := timestamp }, clock)

/-- `nextId`. The sequence is written before `tilNextMillis` runs, so it stays
written when that throws. -/
def nextId (s : Snowflake) : List Long → Option Call
  | [] => none
  | reading :: clock =>
      match tolerate s.lastTimestamp reading with
      | .error e => some (.error e, s, clock)
      | .ok timestamp =>
          if timestamp = s.lastTimestamp then
            let sequence := (s.sequence + 1) &&& sequenceMask
            if sequence = 0 then
              match tilNextMillis s.lastTimestamp clock with
              | none => none
              | some (.error e, clock) => some (.error e, { s with sequence }, clock)
              | some (.ok timestamp, clock) => some (s.issue timestamp sequence clock)
            else some (s.issue timestamp sequence clock)
          else some (s.issue timestamp 0 clock)

/-! ## Reading an id -/

def getWorkerId (id : Long) : Long :=
  id.sshiftRight workerIdShift &&& ~~~((-1 : Long) <<< workerIdBits)

def getDataCenterId (id : Long) : Long :=
  id.sshiftRight dataCenterIdShift &&& ~~~((-1 : Long) <<< dataCenterIdBits)

def getGenerateDateTime (s : Snowflake) (id : Long) : Long :=
  (id.sshiftRight timestampLeftShift &&& ~~~((-1 : Long) <<< 41)) + s.twepoch

end Snowflake

namespace SnowflakeHandler

/-- The id of a group, written in base two. -/
def generateGroupId (snowflake : Snowflake) (clock : List Long) :
    Option (Except String String × Snowflake × List Long) :=
  (snowflake.nextId clock).map fun (id, snowflake, clock) =>
    (id.map Long.toBinaryString, snowflake, clock)

def generateLogId (snowflake : Snowflake) (clock : List Long) : Option Snowflake.Call :=
  snowflake.nextId clock

end SnowflakeHandler

end TxLcn.Tm
