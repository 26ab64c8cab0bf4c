import SmartBell.Common.Attempt
import SmartBell.Config.LightweightConfig
import SmartBell.Config.Parsers
import SmartBell.Config.SmartBellConfig
import SmartBell.Config.RejectedCommand
import SmartBell.Common.Runs
import SmartBell.Config.WellFormed
import SmartBell.App.LineReader
import SmartBell.Config.TornSave
import SmartBell.MQTT.IncomingPacket
import SmartBell.MQTT.MinimalMQTT
import SmartBell.Common.Segments
import SmartBell.MQTT.Packet
import SmartBell.MQTT.Framing
import SmartBell.App.Chime
import SmartBell.Common.Polling
import SmartBell.MQTT.Watchdog
import SmartBell.App.RingTime
import SmartBell.App.RingRequest
import SmartBell.App.MainLoop
import SmartBell.App.Subscriptions
import SmartBell.Config.Reboots
import SmartBell.App.Debounce
import SmartBell.App.Triggers
import SmartBell.App.PressEvents
import SmartBell.App.OutputPins
import SmartBell.App.Independence
import SmartBell.MQTT.Keepalive
import SmartBell.Common.Decoding
import SmartBell.Common.WriteBuffer
import SmartBell.MQTT.ControlPacket
import SmartBell.MQTT.SendBuffer
import SmartBell.App.SessionSetup
import SmartBell.App.Routing
import SmartBell.Common.Decimal
import SmartBell.Config.NumberTexts
import SmartBell.MQTT.Requests
import SmartBell.MQTT.SendLimits
import SmartBell.MQTT.Dispatch
import SmartBell.MQTT.BufferedRuns
import SmartBell.Config.PublishTopics
import SmartBell.App.Publications
import SmartBell.Common.Stores
import SmartBell.Config.CommandEffects
import SmartBell.Config.Migration
import SmartBell.Config.FactoryDefaults
import SmartBell.Config.TypedBack
import SmartBell.App.LineEditor
import SmartBell.Common.Ring
import SmartBell.Utils.CircularBuffer
import SmartBell.Utils.SharedBuffer
import SmartBell.Serial.UART
import SmartBell.Common.Halting
import SmartBell.Serial.SPI
import SmartBell.App.GongController
import SmartBell.App.MessageCommands
import SmartBell.App.ButtonEvents
import SmartBell.App.LostPresses
import SmartBell.Config.UARTCommandParser
import SmartBell.Network.MQTTClient
import SmartBell.Ethernet.EmbeddedSocket
import SmartBell.Common.Looping
import SmartBell.Ethernet.Frames
import SmartBell.Ethernet.Chip
import SmartBell.Ethernet.Registers
import SmartBell.Ethernet.Socket
import SmartBell.Ethernet.Isolation
import SmartBell.Ethernet.Interleaving
import SmartBell.Ethernet.Connection
import SmartBell.Ethernet.Session
import SmartBell.Ethernet.SendStream
import SmartBell.Ethernet.WholePackets
import SmartBell.Ethernet.RecvStream
import SmartBell.Ethernet.OpenClose
import SmartBell.Ethernet.Setup
import SmartBell.Ethernet.Settings
import SmartBell.Ethernet.Allotment
import SmartBell.App.Conversation
import SmartBell.App.Administration
import SmartBell.App.Reconnects
import SmartBell.Config.CommandLine
