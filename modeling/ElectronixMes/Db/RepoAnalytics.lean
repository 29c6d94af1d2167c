import ElectronixMes.Db.RepoIngest
import Mathlib.Data.List.Dedup

/-!
# Downtime analytics

The daily downtime trend. An event counts on the UTC day it starts, and the sum
of a day is rounded to whole seconds.
-/

namespace ElectronixMes.Db

open Relational Timeline

/-- `date_trunc('day', t)` in UTC. -/
def dayOf (t : Int) : Int := t / 86400000000 * 86400000000

/-- The seconds of a number of microseconds as `::bigint` rounds a numeric: to
the nearest, halves away from zero. -/
def roundSeconds (d : Int) : Int :=
  if 0 ≤ d then (d + 500000) / 1000000 else -((-d + 500000) / 1000000)

/-- The events `start_ts >= start AND start_ts < finish`. -/
def trendRows (db : Database) (start finish : Int) : List DowntimeEventRow :=
  db.downtimeEvents.rows.filter fun r => start ≤ r.startTs ∧ r.startTs < finish

/-- Of these, the events of one day. -/
def dayRows (db : Database) (start finish day : Int) : List DowntimeEventRow :=
  (trendRows db start finish).filter fun r => dayOf r.startTs = day

/-- Total downtime seconds per day over `[start, finish)`, ascending by day. -/
def downtimeTrend (db : Database) (start finish : Int) : List (Int × Int) :=
  ((((trendRows db start finish).map fun r => dayOf r.startTs).dedup).insertionSort
      (· ≤ ·)).map fun day =>
    (day, roundSeconds ((dayRows db start finish day).map fun r => r.span.length).sum)

end ElectronixMes.Db
