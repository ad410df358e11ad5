import RehashChart.Host.Machine
import RehashChart.Main
import RehashChart.Proofs.Benchmark.Numbers
import RehashChart.Proofs.Chart.Picture
import RehashChart.Proofs.Chart.Ticks
import RehashChart.Proofs.Run.Showing
import RehashChart.Proofs.Settings.Canvas
import RehashChart.Proofs.Settings.Precedence
import RehashChart.Proofs.Csv.Boundaries
import RehashChart.Proofs.Benchmark.Appending
import RehashChart.Proofs.Benchmark.Encoding
import RehashChart.Proofs.Chart.BarOrder
import RehashChart.Proofs.Chart.BarHeights
import RehashChart.Proofs.Chart.Labels
import RehashChart.Proofs.Chart.Legend
import RehashChart.Proofs.Run.Replacing
import RehashChart.Proofs.Toml.Written
import RehashChart.Proofs.Settings.Entries
import RehashChart.Proofs.Text.Integers
import RehashChart.Proofs.Settings.Texts
import RehashChart.Proofs.Settings.Resolution
import RehashChart.Proofs.Chart.Corners
import RehashChart.Proofs.Chart.TickRange
import RehashChart.Proofs.Chart.Buffer
import RehashChart.Proofs.Chart.Checked
import RehashChart.Proofs.Chart.EveryCanvas
import RehashChart.Proofs.Chart.Pixels
import RehashChart.Proofs.Chart.Steps
import RehashChart.Proofs.Run.AllOrNothing
import RehashChart.Proofs.Settings.Json
import RehashChart.Proofs.Benchmark.Recovery
