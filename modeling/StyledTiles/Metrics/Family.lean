import StyledTiles.Metrics.Client
import StyledTiles.Number.Decimal

/-!
# Metric families

A registry that is held as data keeps each metric as a family: the metric with a series for each assignment
of values to its labels. A family without labels has its one series from the start; a series of a labelled
family exists from the time its labels are first named.

Amounts are of any type that numbers convert to and that has a sum, so that the same definitions count
with binary64 numbers when they run and exactly where sums are compared.
-/
namespace StyledTiles

/-- A counter's name without the ending that its sample has anyway. -/
def MetricKind.stem (kind : MetricKind) (name : String) : String :=
  match kind with
  | .counter =>
    if "_total".toList.isSuffixOf name.toList then
      String.ofList (name.toList.take (name.toList.length - 6))
    else name
  | .histogram => name

def Metric.stem (m : Metric) : String := m.kind.stem m.name

/-- What a series shows: a counter's total, or how many observations fell into each bucket and not
into one before it, with the sum of all observations. -/
inductive Reading (α : Type) where
  | total (sum : α)
  | spread (counts : List α) (sum : α)
deriving DecidableEq, Repr

/-- A series: the values of the family's labels, in the order of the labels, and what it shows. -/
structure Series (α : Type) where
  labelValues : List String
  reading : Reading α
deriving DecidableEq, Repr

/-- A metric with its series. -/
structure Family (α : Type) extends Metric where
  help : String
  series : List (Series α)
deriving Repr

/-- The label of a bucket's bound. -/
def bucketLabelName : String := "le"

/-- The upper bounds of the buckets; each bucket holds its bound. -/
def bucketBounds : List Binary64 :=
  [(5, -3), (1, -2), (25, -3), (5, -2), (75, -3), (1, -1), (25, -2), (5, -1), (75, -2), (1, 0),
    (25, -1), (5, 0), (75, -1), (1, 1)].map (fun (digits, exponent) =>
      Binary64.ofDecimal false digits exponent) ++ [.infinite false]

/-- The text of an amount in a report. A positive number whose text has more than six digits before
its point is written with the point after the first digit and an exponent of at least two digits,
without trailing zeros. -/
def amountText (x : Binary64) : String :=
  match x.shortest? with
  | some d =>
    let text := d.text.toList
    let whole := text.takeWhile (· != '.')
    if d.negative || !text.contains '.' || whole.length ≤ 6 then d.text
    else
      let mantissa := whole.take 1 ++ '.' :: whole.drop 1 ++ (text.drop (whole.length + 1))
      let kept := (mantissa.reverse.dropWhile fun c => c == '0' || c == '.').reverse
      String.ofList kept ++ Decimal.exponentText (whole.length - 1)
  | none =>
    match x with
    | .infinite true => "-Inf"
    | .infinite false => "+Inf"
    | _ => "NaN"

variable {α : Type} [Amount α]

def Reading.fresh : MetricKind → Reading α
  | .counter => .total Amount.zero
  | .histogram => .spread (bucketBounds.map fun _ => Amount.zero) Amount.zero

namespace Family

/-- A new family. -/
def fresh (m : Metric) (help : String) : Family α :=
  { m with
    help
    series := if m.labelNames.isEmpty then [⟨[], .fresh m.kind⟩] else [] }

/-- The running sums of the bucket counts, which start from `before`, with the texts of the bounds. -/
def cumulative (before : α) : List Binary64 → List α → List (String × α) × α
  | bound :: bounds, count :: counts =>
    let here := Amount.add before count
    let (rest, all) := cumulative here bounds counts
    ((amountText bound, here) :: rest, all)
  | _, _ => ([], before)

def seriesSamples (family : Family α) (s : Series α) : List (Sample α) :=
  let labels := family.labelNames.zip s.labelValues
  match s.reading with
  | .total sum => [⟨family.stem ++ "_total", labels, sum⟩]
  | .spread counts sum =>
    let (buckets, all) := cumulative Amount.zero bucketBounds counts
    buckets.map (fun (bound, count) =>
        ⟨family.stem ++ "_bucket", labels ++ [(bucketLabelName, bound)], count⟩)
      ++ [⟨family.stem ++ "_count", labels, all⟩, ⟨family.stem ++ "_sum", labels, sum⟩]

/-- The samples of all series, in the order in which the series came to be. -/
def samples (family : Family α) : List (Sample α) := family.series.flatMap family.seriesSamples

end Family

end StyledTiles
