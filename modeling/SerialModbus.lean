import SerialModbus.Decimal
import SerialModbus.Runs
import SerialModbus.Window
import SerialModbus.Mailbox
import SerialModbus.Text
import SerialModbus.Global
import SerialModbus.Master
import SerialModbus.Driver
import SerialModbus.Smoothing
import SerialModbus.Trimming
import SerialModbus.HWMapper
import SerialModbus.HWService
import SerialModbus.Operations
import SerialModbus.Registration
import SerialModbus.Addressing
import SerialModbus.Panel
import SerialModbus.Reopening
import SerialModbus.Polling
import SerialModbus.Suppression
import SerialModbus.Invalidation
import SerialModbus.Reconfiguration
import SerialModbus.Delivery
import SerialModbus.Transformation
import SerialModbus.Redundancy
import SerialModbus.Shutdown
import SerialModbus.Resources
import SerialModbus.Identifiers
import SerialModbus.Readiness
import SerialModbus.Configuration
import SerialModbus.Startup
import SerialModbus.Ordering
import SerialModbus.Redelivery
import SerialModbus.Checksum
import SerialModbus.Packing
import SerialModbus.Retry
import SerialModbus.Hex
import SerialModbus.Port
import SerialModbus.Protocol
import SerialModbus.Frame
import SerialModbus.Ascii
import SerialModbus.Functions
import SerialModbus.Slave
import SerialModbus.Line
import SerialModbus.Outcome
import SerialModbus.Attempts
import SerialModbus.Opening
import SerialModbus.Access
import SerialModbus.Storage
import SerialModbus.Cycle
import SerialModbus.Reports
import SerialModbus.Thread
import SerialModbus.Regular
import SerialModbus.Session
import SerialModbus.System
